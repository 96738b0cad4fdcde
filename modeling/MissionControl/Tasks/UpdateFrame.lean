import MissionControl.Tasks.Routes

/-!
What an update of one task leaves alone. The update schema fills a missing status, priority,
tags and metadata with the defaults of creation, so a body that omits them still writes them.
-/

set_option autoImplicit false
set_option relaxedAutoImplicit false

namespace MissionControl.Tasks.UpdateFrame

open MissionControl.Foundations.Query
open MissionControl.Foundations.Schema
open Validation Database Routes

/-- The column that a field of the body writes. -/
def column (task : Task) : (field : TaskField) → Option field.Value
  | .title => some task.title
  | .description => task.description
  | .status => some task.status
  | .priority => some task.priority
  | .project_id => task.projectId
  | .assigned_to => task.assignedTo
  | .due_date => task.dueDate
  | .estimated_hours => task.estimatedHours
  | .actual_hours => task.actualHours
  | .outcome => task.outcome
  | .error_message => task.errorMessage
  | .resolution => task.resolution
  | .feedback_rating => task.feedbackRating
  | .feedback_notes => task.feedbackNotes
  | .retry_count => some task.retryCount
  | .completed_at => task.completedAt
  | .tags => task.tags
  | .metadata => task.metadata

/-- The columns that no field of a body writes, and no update touches. -/
def Unwritable (old new : Task) : Prop :=
  new.id = old.id ∧ new.workspaceId = old.workspaceId ∧ new.createdBy = old.createdBy ∧
    new.createdAt = old.createdAt ∧ new.pipelineRunId = old.pipelineRunId ∧ new.prUrl = old.prUrl

/-- The status that an assignment alone brings about. -/
def assignmentStatus (body : TaskBody) (old : Task) : Option TaskStatus :=
  normalizeTaskUpdateStatus old.status none (body .assigned_to) (body .assigned_to).isSome

/-- A field that the body does not have keeps its column, but for a status that follows an
assignment, a completion time on a move to done and a ticket number on a change of project. -/
structure Framed (json : Json) (body : TaskBody) (old new : Task) : Prop where
  columns : ∀ field, Absent json field → field ≠ .status → field ≠ .completed_at →
    column new field = column old field
  status : Absent json .status →
    new.status = old.status ∨ assignmentStatus body old = some new.status
  completedAt : Absent json .completed_at →
    new.completedAt = old.completedAt ∨ body .status = some .done
  ticketNo : new.projectTicketNo = old.projectTicketNo ∨ new.projectId ≠ old.projectId
  unwritable : Unwritable old new

/-- The checks that an update passes before it writes. -/
structure Admitted (ctx : Context) (db : Db) (taskId : Nat) (body : TaskBody) : Prop where
  mentions : ∀ text, body .description = some text → (ctx.mentions text).unresolved = []
  approval : body .status = some .done → hasAegisApproval ctx db taskId = true
  project : ∀ id, body .project_id = some id →
    ∃ project, db.project? ctx.user.workspaceId id = some project ∧ project.status = .active

/-- Each of the four fields with a default is in the body or has its default stored already;
for the status, the move from assigned to inbox that an emptied assignee makes also counts. -/
structure Defaulted (json : Json) (body : TaskBody) (old : Task) : Prop where
  status : Absent json .status → old.status = .inbox ∨
    old.status = .assigned ∧ ∃ assignee, body .assigned_to = some assignee ∧
      hasAssignee (some assignee) = false
  priority : Absent json .priority → old.priority = .medium
  tags : Absent json .tags → old.tags = some []
  metadata : Absent json .metadata → old.metadata = some []

/-! ### The row that is written -/

section

variable {json : Json} {body : TaskBody} {old : Task} {ticketNo : Option Nat} {now : Nat}

/-- All the branches of the update at once. -/
theorem column_updatedTask {field : TaskField} (hstatus : field ≠ .status)
    (hcompleted : field ≠ .completed_at) :
    column (updatedTask body (body .status) ticketNo now old) field =
      (body field).or (column old field) := by
  cases field with
  | status => exact absurd rfl hstatus
  | completed_at => exact absurd rfl hcompleted
  | title => cases h : body .title <;> simp [column, updatedTask, h]
  | priority => cases h : body .priority <;> simp [column, updatedTask, h]
  | retry_count => cases h : body .retry_count <;> simp [column, updatedTask, h]
  | _ => rfl

theorem assignmentStatus_eq_inbox : assignmentStatus body old = some .inbox ↔
    old.status = .assigned ∧ ∃ assignee, body .assigned_to = some assignee ∧
      hasAssignee (some assignee) = false := by
  unfold assignmentStatus normalizeTaskUpdateStatus
  cases hassignee : body .assigned_to with
  | none => simp
  | some assignee =>
    cases hset : hasAssignee (some assignee) with
    | true =>
      have hne : (some TaskStatus.assigned : Option TaskStatus) ≠ some .inbox := by decide
      by_cases hinbox : old.status = .inbox <;> simp [hset, hinbox]
    | false => by_cases hassigned : old.status = .assigned <;> simp [hset, hassigned]

/-- An update writes the defaults over what is missing, so it keeps to the frame exactly when
they were there before. -/
theorem framed_updatedTask_iff (hbody : validateBody updateTaskSchema json = .ok body)
    (hticket : ticketNo = none ∨
      ∃ projectId, body .project_id = some projectId ∧ old.projectId ≠ some projectId) :
    Framed json body old (updatedTask body (body .status) ticketNo now old) ↔
      Defaulted json body old := by
  obtain ⟨status, hstatus⟩ := status_provided hbody
  have hnew : (updatedTask body (body .status) ticketNo now old).status = status := by
    simp [updatedTask, hstatus]
  have hdefault : ∀ field, Absent json field → body field = updateDefault field :=
    fun field => body_absent hbody
  constructor
  · intro hframed
    constructor
    · intro habsent
      have hinbox : status = .inbox :=
        Option.some.inj (hstatus.symm.trans (hdefault .status habsent))
      rcases hframed.status habsent with hsame | hassigned
      · exact .inl (by rw [← hsame, hnew, hinbox])
      · rw [hnew, hinbox] at hassigned
        exact .inr (assignmentStatus_eq_inbox.mp hassigned)
    · intro habsent
      have hcolumn := hframed.columns .priority habsent (by decide) (by decide)
      rw [column_updatedTask (by decide) (by decide), hdefault .priority habsent] at hcolumn
      exact (Option.some.inj hcolumn).symm
    · intro habsent
      have hcolumn := hframed.columns .tags habsent (by decide) (by decide)
      rw [column_updatedTask (by decide) (by decide), hdefault .tags habsent] at hcolumn
      exact hcolumn.symm
    · intro habsent
      have hcolumn := hframed.columns .metadata habsent (by decide) (by decide)
      rw [column_updatedTask (by decide) (by decide), hdefault .metadata habsent] at hcolumn
      exact hcolumn.symm
  · intro hdefaulted
    constructor
    · intro field habsent hnotStatus hnotCompleted
      rw [column_updatedTask hnotStatus hnotCompleted, hdefault field habsent]
      cases field with
      | status => exact absurd rfl hnotStatus
      | completed_at => exact absurd rfl hnotCompleted
      | priority => exact congrArg some (hdefaulted.priority habsent).symm
      | tags => exact (hdefaulted.tags habsent).symm
      | metadata => exact (hdefaulted.metadata habsent).symm
      | _ => rfl
    · intro habsent
      have hinbox : status = .inbox :=
        Option.some.inj (hstatus.symm.trans (hdefault .status habsent))
      rw [hnew, hinbox]
      rcases hdefaulted.status habsent with hsame | hassigned
      · exact .inl hsame.symm
      · exact .inr (assignmentStatus_eq_inbox.mpr hassigned)
    · intro habsent
      have hnone : body .completed_at = none := hdefault .completed_at habsent
      by_cases hdone : body .status = some .done
      · exact .inr hdone
      · exact .inl (by simp [updatedTask, hnone, hdone])
    · rcases hticket with rfl | ⟨projectId, hproject, hmoved⟩
      · exact .inl rfl
      · refine .inr ?_
        show (body .project_id).or old.projectId ≠ old.projectId
        rw [hproject]
        exact fun h => hmoved h.symm
    · exact ⟨rfl, rfl, rfl, rfl, rfl, rfl⟩

theorem framed_refl : Framed json body old old :=
  ⟨fun _ _ _ _ => rfl, fun _ => .inl rfl, fun _ => .inl rfl, .inl rfl,
    ⟨rfl, rfl, rfl, rfl, rfl, rfl⟩⟩

end

/-! ### The request -/

section

variable {ctx : Context} {db : Db} {projectId : Option Nat}

private theorem moveProject_ok (task : Task) (h : ∀ id, projectId = some id →
    ∃ project, db.project? ctx.user.workspaceId id = some project ∧ project.status = .active) :
    ∃ db' ticketNo, moveProject ctx db task projectId = (db', .ok ticketNo) ∧
      db'.tasks = db.tasks ∧
      (ticketNo = none ∨ ∃ id, projectId = some id ∧ task.projectId ≠ some id) := by
  cases projectId with
  | none => exact ⟨db, none, rfl, rfl, .inl rfl⟩
  | some id =>
    obtain ⟨project, hproject, hactive⟩ := h id rfl
    by_cases hsame : task.projectId = some id
    · exact ⟨db, none, by simp [moveProject, hproject, hactive, hsame], rfl, .inl rfl⟩
    · refine ⟨db.updateProject ctx.user.workspaceId id raiseCounter,
        some (project.ticketCounter + 1), ?_, rfl, .inr ⟨id, rfl, hsame⟩⟩
      simp [moveProject, hproject, hactive, hsame, allocateTicket_eq hproject]

variable {task : Task}

private theorem moveProject_refused {id : Nat} (hproject : projectId = some id)
    (h : ¬ ∃ project, db.project? ctx.user.workspaceId id = some project ∧ project.status = .active) :
    moveProject ctx db task projectId =
      (db, .error (.error 400 "Project not found or archived")) := by
  subst hproject
  have hnone : (db.project? ctx.user.workspaceId id).any (fun p => p.status = .active) = false := by
    cases hrow : db.project? ctx.user.workspaceId id with
    | none => rfl
    | some project =>
      have hactive : project.status ≠ .active := fun hactive => h ⟨project, hrow, hactive⟩
      simp [hactive]
  simp [moveProject, hnone]

variable {taskId : Nat} {json : Json} {body : TaskBody}
  (hbody : validateBody updateTaskSchema json = .ok body)
  (htask : db.task? ctx.user.workspaceId taskId = some task)

include hbody htask

theorem putTask_admitted (h : Admitted ctx db taskId body) : ∃ ticketNo,
    (putTask ctx db taskId json).1.task? ctx.user.workspaceId taskId =
      some (updatedTask body (body .status) ticketNo ctx.now task) ∧
    (ticketNo = none ∨ ∃ id, body .project_id = some id ∧ task.projectId ≠ some id) := by
  obtain ⟨status, hstatus⟩ := status_provided hbody
  have hmentions : (((body .description).map ctx.mentions).map
      MentionResolution.unresolved).getD [] = [] := by
    cases htext : body .description with
    | none => rfl
    | some text => exact h.mentions text htext
  have happroved : ¬ (some status = some TaskStatus.done ∧ ¬ hasAegisApproval ctx db taskId) := by
    rintro ⟨hdone, happroval⟩
    exact happroval (h.approval (hstatus.trans hdone))
  obtain ⟨db', ticketNo, hmove, htasks, hticket⟩ := moveProject_ok task h.project
  have hfields : fieldsToUpdate body (some status) ≠ [] := by
    intro hempty
    have hmem : TaskField.status ∈ fieldsToUpdate body (some status) := by
      simp [fieldsToUpdate, TaskField.all]
    rw [hempty] at hmem
    cases hmem
  refine ⟨ticketNo, ?_, hticket⟩
  have hread : db'.task? ctx.user.workspaceId taskId = some task := by
    rw [← htask, Db.task?, Db.task?, htasks]
  have hwritten := task?_updateTask db' ctx.user.workspaceId taskId
    (f := updatedTask body (some status) ticketNo ctx.now) fun _ => ⟨rfl, rfl⟩
  rw [hread] at hwritten
  simp only [putTask, hbody, htask, hstatus, normalizeTaskUpdateStatus, hmentions, ne_eq,
    not_true_eq_false, if_false, happroved, hmove, hfields]
  exact hwritten

theorem putTask_refused (h : ¬ Admitted ctx db taskId body) :
    (putTask ctx db taskId json).1.task? ctx.user.workspaceId taskId = some task := by
  obtain ⟨status, hstatus⟩ := status_provided hbody
  simp only [putTask, hbody, htask, hstatus, normalizeTaskUpdateStatus]
  split
  · exact htask
  · rename_i hmentions
    split
    · exact htask
    · rename_i happroval
      have hproject : ∃ id, body .project_id = some id ∧ ¬ ∃ project,
          db.project? ctx.user.workspaceId id = some project ∧ project.status = .active := by
        by_contra hall
        refine h ⟨?_, ?_, ?_⟩
        · intro text htext
          rw [htext] at hmentions
          exact not_not.mp hmentions
        · intro hdone
          rw [hstatus] at hdone
          by_contra hnot
          exact happroval ⟨hdone, hnot⟩
        · intro id hid
          by_contra hmissing
          exact hall ⟨id, hid, hmissing⟩
      obtain ⟨id, hid, hmissing⟩ := hproject
      rw [moveProject_refused hid hmissing]
      exact htask

/-- An accepted body keeps to the frame exactly when a check refuses it or the stored task has
the default of each field with a default that the body leaves out. -/
theorem update_framed_iff :
    (∃ new, (putTask ctx db taskId json).1.task? ctx.user.workspaceId taskId = some new ∧
      Framed json body task new) ↔ (Admitted ctx db taskId body → Defaulted json body task) := by
  constructor
  · rintro ⟨new, hnew, hframed⟩ hadmitted
    obtain ⟨ticketNo, hwritten, hticket⟩ := putTask_admitted hbody htask hadmitted
    obtain rfl := Option.some.inj (hnew.symm.trans hwritten)
    exact (framed_updatedTask_iff hbody hticket).mp hframed
  · intro hdefaulted
    by_cases hadmitted : Admitted ctx db taskId body
    · obtain ⟨ticketNo, hwritten, hticket⟩ := putTask_admitted hbody htask hadmitted
      exact ⟨_, hwritten, (framed_updatedTask_iff hbody hticket).mpr (hdefaulted hadmitted)⟩
    · exact ⟨task, putTask_refused hbody htask hadmitted, framed_refl⟩

end

/-- A body that only renames a task. -/
def sampleRename : Json := .object [("title", .string "Send the report")]

private theorem sampleRename_absent {field : TaskField} (h : field ≠ .title) :
    Absent sampleRename field := by
  refine ⟨_, rfl, ?_⟩
  cases field with
  | title => exact absurd rfl h
  | _ => rfl

private theorem sampleRename_ok : ∃ body, validateBody updateTaskSchema sampleRename = .ok body := by
  have hok : (validateBody updateTaskSchema sampleRename).isOk = true := by decide +kernel
  cases hbody : validateBody updateTaskSchema sampleRename with
  | error issues =>
    rw [hbody] at hok
    cases hok
  | ok body => exact ⟨body, rfl⟩

theorem update_framed_iff_sample : ∃ body, validateBody updateTaskSchema sampleRename = .ok body ∧
    sampleDb.task? 1 1 = some sampleTask ∧
      ((∃ new, (putTask sampleContext sampleDb 1 sampleRename).1.task? 1 1 = some new ∧
        Framed sampleRename body sampleTask new) ↔
          (Admitted sampleContext sampleDb 1 body → Defaulted sampleRename body sampleTask)) := by
  obtain ⟨body, hbody⟩ := sampleRename_ok
  exact ⟨body, hbody, rfl, @update_framed_iff sampleContext sampleDb sampleTask 1 sampleRename body hbody rfl⟩

/-- Renaming a task that is in progress moves it to the inbox and lowers its priority. -/
theorem rename_resets_task : ∃ body new,
    validateBody updateTaskSchema sampleRename = .ok body ∧
      sampleDb.task? 1 1 = some sampleTask ∧
      (putTask sampleContext sampleDb 1 sampleRename).1.task? 1 1 = some new ∧
      new.title = "Send the report" ∧ new.status = .inbox ∧ new.priority = .medium ∧
      new.tags = some [] ∧ ¬ Framed sampleRename body sampleTask new := by
  obtain ⟨body, hbody⟩ := sampleRename_ok
  have hwritten : ((putTask sampleContext sampleDb 1 sampleRename).1.task? 1 1).map (fun new =>
      (new.title, new.status, new.priority, new.tags)) =
        some ("Send the report", .inbox, .medium, some []) := by
    decide +kernel
  obtain ⟨new, hnew, hcolumns⟩ := Option.map_eq_some_iff.mp hwritten
  obtain ⟨htitle, hrest⟩ := Prod.mk.inj hcolumns
  obtain ⟨hstatus, hrest⟩ := Prod.mk.inj hrest
  obtain ⟨hpriority, htags⟩ := Prod.mk.inj hrest
  refine ⟨body, new, hbody, rfl, hnew, htitle, hstatus, hpriority, htags, ?_⟩
  intro hframed
  have hpriority' := hframed.columns .priority (sampleRename_absent (by decide)) (by decide)
    (by decide)
  have hsame : new.priority = .high := Option.some.inj hpriority'
  rw [hpriority] at hsame
  cases hsame

end MissionControl.Tasks.UpdateFrame
