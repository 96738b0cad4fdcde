import MissionControl.Conductor.Rows
import MissionControl.Workload.Operations

/-!
The completion time of tasks over every run. A task that becomes done gets a time, and no write
changes one that a done task has; the writers that forget the time are those of the quality review,
of the imports, and of the synchronizations with the Conductor.
-/

set_option autoImplicit false
set_option relaxedAutoImplicit false

namespace MissionControl.Workload.CompletionTimes

open MissionControl.Foundations.Lists
open MissionControl.Foundations.Schema (Json)
open MissionControl.Foundations.Transition (Machine)
open MissionControl.Tasks.Validation
open MissionControl.Tasks.Database
open MissionControl.Tasks.Routes hiding newTask updatedTask
open MissionControl.Tasks.RouteSteps (Request serve createTaskTx_some)
open MissionControl.Events.Stores
open MissionControl.Events.Producers (TaskQueries Caller)
open MissionControl.Conductor.Files
open MissionControl.Conductor.Sync
open MissionControl.Conductor.Rows
open GitHubImport (Import GitHubIssue imported writeIssue)
open Operations

/-- Every task that is done has a completion time. -/
def Timely (db : Db) : Prop := ∀ t ∈ db.tasks, t.status = .done → t.completedAt.isSome = true

/-- A task that is done in the end has kept the completion time that it had. -/
def KeepsTimes (before after : Db) : Prop :=
  ∀ t ∈ before.tasks, ∀ t' ∈ after.tasks, t'.id = t.id → t'.status = .done →
    ∀ c, t.completedAt = some c → t'.completedAt = some c

/-! ### Writes that keep the time -/

/-- What a write may do to a row. -/
structure Follows (t t' : Task) : Prop where
  id : t'.id = t.id
  kept : ∀ c, t.completedAt = some c → t'.completedAt = some c
  done : t'.status = .done → t.status = .done ∨ t'.completedAt.isSome = true

theorem Follows.refl (t : Task) : Follows t t := ⟨rfl, fun _ h => h, fun h => .inl h⟩

theorem Follows.trans {t t' t'' : Task} (h : Follows t t') (h' : Follows t' t'') :
    Follows t t'' := by
  refine ⟨h'.id.trans h.id, fun c hc => h'.kept c (h.kept c hc), ?_⟩
  intro hdone
  rcases h'.done hdone with hbefore | htime
  · rcases h.done hbefore with hfirst | htime
    · exact .inl hfirst
    · obtain ⟨c, hc⟩ := Option.isSome_iff_exists.mp htime
      exact .inr (by rw [h'.kept c hc]; rfl)
  · exact .inr htime

/-- Rows follow those from before, and new rows are timely. -/
structure Advances (before after : Db) : Prop where
  rows : ∀ t' ∈ after.tasks, (∃ t ∈ before.tasks, Follows t t') ∨
    before.nextTaskId ≤ t'.id ∧ (t'.status = .done → t'.completedAt.isSome = true)
  next : before.nextTaskId ≤ after.nextTaskId

section

variable {db db' db'' : Db}

theorem Advances.of_rows (htasks : db'.tasks = db.tasks) (hnext : db'.nextTaskId = db.nextTaskId) :
    Advances db db' := by
  refine ⟨?_, hnext.ge⟩
  intro t ht
  exact .inl ⟨t, htasks ▸ ht, .refl t⟩

theorem Advances.trans (h : Advances db db') (h' : Advances db' db'') : Advances db db'' := by
  refine ⟨?_, h.next.trans h'.next⟩
  intro t'' ht''
  rcases h'.rows t'' ht'' with ⟨t', ht', hfollows⟩ | ⟨hnew, htimely⟩
  · rcases h.rows t' ht' with ⟨t, ht, hfirst⟩ | ⟨hnew, htimely⟩
    · exact .inl ⟨t, ht, hfirst.trans hfollows⟩
    · refine .inr ⟨hfollows.id ▸ hnew, ?_⟩
      intro hdone
      rcases hfollows.done hdone with hbefore | htime
      · obtain ⟨c, hc⟩ := Option.isSome_iff_exists.mp (htimely hbefore)
        rw [hfollows.kept c hc]
        rfl
      · exact htime
  · exact .inr ⟨h.next.trans hnew, htimely⟩

theorem Advances.of_map {g : Task → Task} (hg : ∀ t ∈ db.tasks, Follows t (g t))
    (htasks : db'.tasks = db.tasks.map g) (hnext : db'.nextTaskId = db.nextTaskId) :
    Advances db db' := by
  refine ⟨?_, hnext.ge⟩
  intro t' ht'
  rw [htasks] at ht'
  obtain ⟨t, ht, rfl⟩ := List.mem_map.mp ht'
  exact .inl ⟨t, ht, hg t ht⟩

theorem Advances.of_insert {row : Task} (hid : row.id = db.nextTaskId)
    (hrow : row.status = .done → row.completedAt.isSome = true)
    (htasks : db'.tasks = db.tasks ++ [row]) (hnext : db'.nextTaskId = db.nextTaskId + 1) :
    Advances db db' := by
  refine ⟨?_, by omega⟩
  intro t ht
  rw [htasks] at ht
  rcases List.mem_append.mp ht with ht | ht
  · exact .inl ⟨t, ht, .refl t⟩
  · obtain rfl := List.mem_singleton.mp ht
    exact .inr ⟨hid.ge, hrow⟩

theorem Advances.timely (h : Advances db db') (htimely : Timely db) : Timely db' := by
  intro t' ht' hdone
  rcases h.rows t' ht' with ⟨t, ht, hfollows⟩ | ⟨-, htime⟩
  · rcases hfollows.done hdone with hbefore | htime
    · obtain ⟨c, hc⟩ := Option.isSome_iff_exists.mp (htimely t ht hbefore)
      rw [hfollows.kept c hc]
      rfl
    · exact htime
  · exact htime hdone

theorem Advances.keepsTimes (h : Advances db db') (hkeyed : Keyed Task.id db.tasks db.nextTaskId) :
    KeepsTimes db db' := by
  intro t ht t' ht' hid _ c hc
  rcases h.rows t' ht' with ⟨old, hold, hfollows⟩ | ⟨hnew, -⟩
  · obtain rfl := hkeyed.eq_of_key hold ht (hfollows.id.symm.trans hid)
    exact hfollows.kept c hc
  · have hlt := hkeyed.fresh t ht
    omega

end

/-! ### Requests -/

/-- A request that names no completion time. -/
def NoCompletedAt : Request → Prop
  | .postTask json => ∀ body, validateBody createTaskSchema json = .ok body →
      body .completed_at = none
  | .putTask _ json => ∀ body, validateBody updateTaskSchema json = .ok body →
      body .completed_at = none
  | _ => True

/-- An approval by Aegis finds a task that has its time, and an approved update to done does not
find the time 0, which it takes for none. -/
def RequestTimely (ctx : Context) (db : Db) : Request → Prop
  | .postReview json => ∀ review, parseReview json = .ok review → review.status = .approved →
      review.reviewer = "aegis" →
      ∀ t ∈ (rowId review.taskId).bind (db.task? ctx.user.workspaceId), t.completedAt.isSome = true
  | .putTask taskId json => ∀ body, validateBody updateTaskSchema json = .ok body →
      body .status = some .done → hasAegisApproval ctx db taskId = true →
      ∀ t ∈ db.task? ctx.user.workspaceId taskId, t.completedAt ≠ some 0
  | _ => True

section

variable {ctx : Context} {db db' : Db}

theorem advances_createTaskTx {requested : Option Nat} {row : (id projectId no : Nat) → Task}
    (hid : ∀ id projectId no, (row id projectId no).id = id)
    (hrow : ∀ id projectId no, (row id projectId no).status = .done →
      (row id projectId no).completedAt.isSome = true)
    (h : createTaskTx ctx db requested row = some db') : Advances db db' := by
  obtain ⟨project, -, rfl⟩ := createTaskTx_some h
  exact .of_insert (hid _ _ _) (hrow _ _ _) rfl rfl

theorem advances_postTask (json : Json) : Advances db (postTask ctx db json).1 := by
  unfold postTask
  dsimp only
  split
  · exact .of_rows rfl rfl
  · rename_i body hbody
    split
    · exact .of_rows rfl rfl
    · split
      · exact .of_rows rfl rfl
      · split
        · exact .of_rows rfl rfl
        · rename_i created hcreated
          have hadvances : Advances db created := by
            refine advances_createTaskTx (fun _ _ _ => rfl) ?_ hcreated
            intro id projectId no hdone
            have hdone : normalizeTaskCreateStatus (body .status) (body .assigned_to) = .done := hdone
            cases htime : body .completed_at with
            | some time => simp [Tasks.Routes.newTask, htime]
            | none => simp [Tasks.Routes.newTask, htime, hdone]
          exact ⟨hadvances.rows, hadvances.next⟩

theorem advances_nimbusTask (params : NimbusTask) : Advances db (nimbusTask ctx db params).1 := by
  unfold nimbusTask
  dsimp only
  split
  · exact .of_rows rfl rfl
  · rename_i created hcreated
    have hadvances : Advances db created :=
      advances_createTaskTx (fun _ _ _ => rfl) (fun _ _ _ hdone => by cases hdone) hcreated
    exact ⟨hadvances.rows, hadvances.next⟩

variable (db) in
/-- A write to one task. -/
theorem advances_updateTask (workspaceId id : Nat) {f : Task → Task}
    (hf : ∀ t ∈ db.tasks, t.id = id ∧ t.workspaceId = workspaceId → Follows t (f t)) :
    Advances db (db.updateTask workspaceId id f) := by
  refine .of_map ?_ rfl rfl
  intro t ht
  by_cases hrow : t.id = id ∧ t.workspaceId = workspaceId
  · rw [if_pos hrow]
    exact hf t ht hrow
  · rw [if_neg hrow]
    exact .refl t

theorem advances_bulkItem {item : BulkItem} (h : bulkItem ctx db item = .ok db') :
    Advances db db' := by
  unfold bulkItem at h
  dsimp only at h
  split at h
  · obtain rfl := Except.ok.inj h
    exact .of_rows rfl rfl
  · split at h
    · cases h
    · obtain rfl := Except.ok.inj h
      have hwritten : Advances db (db.updateTask ctx.user.workspaceId item.id fun t =>
          if item.status = .done then
            { t with
              status := item.status
              updatedAt := ctx.now
              completedAt := t.completedAt.or (some ctx.now) }
          else { t with status := item.status, updatedAt := ctx.now }) := by
        apply advances_updateTask
        intro t _ _
        split
        · refine ⟨rfl, fun c hc => by simp [hc], fun _ => .inr ?_⟩
          cases t.completedAt <;> simp
        · exact ⟨rfl, fun _ hc => hc, fun hdone => absurd hdone (by assumption)⟩
      split
      · exact hwritten
      · exact ⟨hwritten.rows, hwritten.next⟩

theorem advances_bulkItems {items : List BulkItem} (h : bulkItems ctx db items = .ok db') :
    Advances db db' := by
  induction items generalizing db with
  | nil =>
    obtain rfl := Except.ok.inj h
    exact .of_rows rfl rfl
  | cons item items ih =>
    unfold bulkItems at h
    split at h
    · rename_i written hitem
      exact (advances_bulkItem hitem).trans (ih h)
    · cases h

theorem advances_putTasks (json : Json) : Advances db (putTasks ctx db json).1 := by
  unfold putTasks
  split
  · exact .of_rows rfl rfl
  · split
    · exact .of_rows rfl rfl
    · rename_i written hitems
      have hadvances := advances_bulkItems hitems
      exact ⟨hadvances.rows, hadvances.next⟩

variable (ctx db) in
/-- A move to another project writes no task. -/
theorem rows_moveProject (task : Task) (projectId : Option Nat) :
    (moveProject ctx db task projectId).1.tasks = db.tasks ∧
      (moveProject ctx db task projectId).1.nextTaskId = db.nextTaskId := by
  unfold moveProject
  split
  · exact ⟨rfl, rfl⟩
  · dsimp only
    split
    · exact ⟨rfl, rfl⟩
    · split
      · exact ⟨rfl, rfl⟩
      · simp only [allocateTicket]
        split <;> rename_i heq
        · obtain ⟨rfl, -⟩ := Prod.mk.inj heq
          exact ⟨rfl, rfl⟩
        · obtain ⟨rfl, -⟩ := Prod.mk.inj heq
          exact ⟨rfl, rfl⟩

theorem follows_updatedTask {body : TaskBody} {status : Option TaskStatus} (ticketNo : Option Nat)
    (now : Nat) {t : Task} (hbody : body .completed_at = none)
    (hzero : status = some .done → t.completedAt ≠ some 0) :
    Follows t (Tasks.Routes.updatedTask body status ticketNo now t) := by
  have htime : (Tasks.Routes.updatedTask body status ticketNo now t).completedAt =
      if status = some .done ∧ notCompleted t then some (now : Rat) else t.completedAt := by
    simp [Tasks.Routes.updatedTask, hbody]
  refine ⟨rfl, ?_, ?_⟩
  · intro c hc
    rw [htime]
    split
    · rename_i hdone
      have hnone := hdone.2
      simp only [notCompleted, decide_eq_true_eq] at hnone
      rcases hnone with hnone | hnone
      · simp [hnone] at hc
      · exact absurd hnone (hzero hdone.1)
    · exact hc
  · intro hdone
    cases status with
    | none => exact .inl hdone
    | some status =>
      obtain rfl : status = .done := hdone
      right
      rw [htime]
      split
      · rfl
      · rename_i hkept
        cases htime : t.completedAt with
        | some c => rfl
        | none => exact absurd ⟨rfl, by simp [notCompleted, htime]⟩ hkept

/-- A status of done comes from the body. -/
theorem status_of_normalized {current : TaskStatus} {requested : Option TaskStatus}
    {assignedTo : Option String} {provided : Bool}
    (h : normalizeTaskUpdateStatus current requested assignedTo provided = some .done) :
    requested = some .done := by
  cases requested with
  | some status => exact h
  | none =>
    simp only [normalizeTaskUpdateStatus] at h
    split at h
    · cases h
    · split at h
      · cases h
      · split at h <;> cases h

theorem advances_putTask {taskId : Nat} {json : Json}
    (hkeyed : Keyed Task.id db.tasks db.nextTaskId) (hexplicit : NoCompletedAt (.putTask taskId json))
    (htimely : RequestTimely ctx db (.putTask taskId json)) :
    Advances db (putTask ctx db taskId json).1 := by
  unfold putTask
  dsimp only
  split
  · exact .of_rows rfl rfl
  · rename_i body hbody
    split
    · exact .of_rows rfl rfl
    · rename_i currentTask hrow
      split
      · exact .of_rows rfl rfl
      · split
        · exact .of_rows rfl rfl
        · rename_i hgate
          have hmoved := rows_moveProject ctx db currentTask (body .project_id)
          split
          · rename_i moved response heq
            rw [heq] at hmoved
            exact .of_rows hmoved.1 hmoved.2
          · rename_i moved ticketNo heq
            rw [heq] at hmoved
            split
            · exact .of_rows hmoved.1 hmoved.2
            · have hstart : Advances db moved := .of_rows hmoved.1 hmoved.2
              have hwritten := advances_updateTask moved ctx.user.workspaceId taskId
                (f := Tasks.Routes.updatedTask body (normalizeTaskUpdateStatus currentTask.status
                  (body .status) (body .assigned_to) (body .assigned_to).isSome) ticketNo ctx.now)
                ?_
              · exact hstart.trans ⟨hwritten.rows, hwritten.next⟩
              · intro t ht hid
                rw [hmoved.1] at ht
                refine follows_updatedTask ticketNo ctx.now (hexplicit body hbody) ?_
                intro hdone
                obtain rfl := task?_unique hkeyed.unique hrow ht hid.1
                refine htimely body hbody (status_of_normalized hdone) ?_ t hrow
                simpa [hdone] using hgate

/-- The pickup makes a task in progress. -/
theorem advances_pickup (agent : String) (attempts : Nat) :
    Advances db (pickup ctx agent attempts db).1 := by
  induction attempts with
  | zero => exact .of_rows rfl rfl
  | succ attempts ih =>
    unfold pickup
    dsimp only
    split
    · exact .of_rows rfl rfl
    · split
      · apply advances_updateTask
        intro t _ _
        split
        · exact ⟨rfl, fun _ hc => hc, fun hdone => by cases hdone⟩
        · exact .refl t
      · exact ih

theorem advances_pollQueue (agentParam agentHeader maxCapacityParam : String) :
    Advances db (pollQueue ctx db agentParam agentHeader maxCapacityParam).1 := by
  unfold pollQueue
  dsimp only
  split
  · exact .of_rows rfl rfl
  · split
    · exact .of_rows rfl rfl
    · split
      · exact .of_rows rfl rfl
      · split
        · exact .of_rows rfl rfl
        · exact advances_pickup _ 5

theorem advances_postReview {json : Json} (hkeyed : Keyed Task.id db.tasks db.nextTaskId)
    (htimely : RequestTimely ctx db (.postReview json)) : Advances db (postReview ctx db json).1 := by
  unfold postReview
  dsimp only
  split
  · exact .of_rows rfl rfl
  · rename_i review hreview
    split
    · exact .of_rows rfl rfl
    · rename_i task hrow
      split
      · rename_i happroved
        have htime := htimely review hreview happroved.1 happroved.2 task hrow
        have hfound := Option.bind_eq_some_iff.mp hrow
        obtain ⟨id, -, hfound⟩ := hfound
        have hmem := List.mem_of_find?_eq_some hfound
        have hwritten : Advances db (db.updateTask ctx.user.workspaceId task.id fun t =>
            { t with status := .done, updatedAt := ctx.now }) := by
          apply advances_updateTask
          intro t ht hid
          obtain rfl := hkeyed.eq_of_key ht hmem hid.1
          exact ⟨rfl, fun _ hc => hc, fun _ => .inr htime⟩
        exact ⟨hwritten.rows, hwritten.next⟩
      · exact .of_rows rfl rfl

theorem advances_serve {request : Request} (hkeyed : Keyed Task.id db.tasks db.nextTaskId)
    (hexplicit : NoCompletedAt request) (htimely : RequestTimely ctx db request) :
    Advances db (serve ctx db request).1 := by
  cases request with
  | postTask json => exact advances_postTask json
  | putTasks json => exact advances_putTasks json
  | putTask taskId json => exact advances_putTask hkeyed hexplicit htimely
  | pollQueue agentParam agentHeader maxCapacityParam =>
    simp only [serve]
    exact advances_pollQueue agentParam agentHeader maxCapacityParam
  | postReview json => exact advances_postReview hkeyed htimely
  | nimbusTask params => exact advances_nimbusTask params

end

/-! ### Imports -/

/-- An issue that is closed has been imported before, or comes after another of its number. -/
def IssuesTimely (db : Db) (params : Import) (issues : List GitHubIssue) : Prop :=
  Throughout (fun front issue => issue.closed = true →
    imported db params issue = true ∨ ∃ earlier ∈ front, earlier.number = issue.number) issues

section

variable {db : Db}

variable (db) in
/-- An import leaves imported what it finds and what it writes. -/
theorem imported_writeIssue (now : Nat) (params : Import) (issue : GitHubIssue) :
    (∀ other, imported db params other = true →
      imported (writeIssue now params db issue) params other = true) ∧
    imported (writeIssue now params db issue) params issue = true := by
  unfold writeIssue
  by_cases hold : imported db params issue = true
  · rw [if_pos hold]
    exact ⟨fun _ h => h, hold⟩
  · rw [if_neg hold]
    constructor
    · intro other hother
      simp only [imported, insertTask, List.any_append, Bool.or_eq_true]
      exact .inl hother
    · have hrow : Foundations.Schema.lookup
          ((GitHubImport.newTask db.nextTaskId now params issue).metadata.getD [])
            "github_issue_number" = some (natural issue.number) := rfl
      have hrepo : Foundations.Schema.lookup
          ((GitHubImport.newTask db.nextTaskId now params issue).metadata.getD [])
            "github_repo" = some (.string params.repo) := rfl
      have hworkspace : (GitHubImport.newTask db.nextTaskId now params issue).workspaceId =
          params.workspaceId := rfl
      simp [imported, insertTask, hrow, hrepo, hworkspace]

theorem imported_congr {params : Import} {issue other : GitHubIssue}
    (h : other.number = issue.number) : imported db params other = imported db params issue := by
  simp only [imported, h]

/-- The loop of an import. -/
theorem advances_issues (now : Nat) (params : Import) {issues : List GitHubIssue}
    (h : IssuesTimely db params issues) :
    Advances db (issues.foldl (writeIssue now params) db) ∧
      (∀ issue, imported db params issue = true →
        imported (issues.foldl (writeIssue now params) db) params issue = true) ∧
      ∀ issue ∈ issues,
        imported (issues.foldl (writeIssue now params) db) params issue = true := by
  induction issues using List.reverseRecOn with
  | nil => exact ⟨.of_rows rfl rfl, fun _ h => h, fun _ h => by cases h⟩
  | append_singleton front issue ih =>
    obtain ⟨hfront, hlast⟩ := throughout_snoc.mp h
    obtain ⟨hadvances, hkept, hwritten⟩ := ih hfront
    obtain ⟨hothers, hself⟩ := imported_writeIssue (front.foldl (writeIssue now params) db)
      now params issue
    rw [List.foldl_append, List.foldl_cons, List.foldl_nil]
    refine ⟨hadvances.trans ?_, fun other hother => hothers other (hkept other hother), ?_⟩
    · unfold writeIssue
      split
      · exact .of_rows rfl rfl
      · rename_i hnew
        refine .of_insert rfl ?_ rfl rfl
        intro hdone
        have hclosed : issue.closed = true := by
          by_contra hopen
          simp [GitHubImport.newTask, hopen] at hdone
        rcases hlast hclosed with hstart | ⟨earlier, hearlier, hnumber⟩
        · exact absurd (hkept issue hstart) hnew
        · exact absurd (imported_congr hnumber ▸ hwritten earlier hearlier) hnew
    · intro other hother
      rcases List.mem_append.mp hother with hother | hother
      · exact hothers other (hwritten other hother)
      · obtain rfl := List.mem_singleton.mp hother
        exact hself

end

/-! ### Synchronizations with the Conductor -/

/-- A task that the Conductor is through with has a row, which has no time yet or has that one. -/
def EntriesTimely (db : Db) (entries : List (Entry ConductorTask)) : Prop :=
  ∀ task, Entry.wellFormed task ∈ entries → task.completed = true →
    ∃ t, findTask db task.id = some t ∧ (t.completedAt = none ∨ t.completedAt = task.completedAt)

/-- A file of the archive finds no row with another time that it will write to. -/
def FilesTimely (db : Db) (nowMs : Nat) (files : List (Contents CompletedTask)) : Prop :=
  ∀ task, Contents.parsed task ∈ files → ∀ t ∈ findTask db task.id, t.status ≠ .done →
    t.completedAt = none ∨ t.completedAt = some (task.completedAt nowMs : Rat)

theorem completed_of_done {task : ConductorTask} (h : mcStatus task.status = .done) :
    task.completed = true := by
  by_contra hopen
  simp only [ConductorTask.completed, decide_eq_true_eq, not_or] at hopen
  unfold mcStatus at h
  split at h <;> simp_all

section

variable {companyToProjectId : List (String × Nat)} {start db db' : Db}

/-- What holds between the writes of a synchronization, with respect to the rows at its start. -/
structure Syncing (start db : Db) : Prop where
  timely : Timely db
  keeps : KeepsTimes start db
  keyed : Keyed Task.id db.tasks db.nextTaskId
  next : start.nextTaskId ≤ db.nextTaskId
  found : ∀ x t, findTask start x = some t → ∃ t', t'.id = t.id ∧ findTask db x = some t'

theorem syncing_writeTask {task : ConductorTask} (hstart : Keyed Task.id start.tasks start.nextTaskId)
    (h : Syncing start db) (htask : task.completed = true → ∃ t, findTask start task.id = some t ∧
      (t.completedAt = none ∨ t.completedAt = task.completedAt)) :
    Syncing start (writeTask companyToProjectId db task) := by
  have hrows : ∀ t' ∈ (writeTask companyToProjectId db task).tasks, t' ∈ db.tasks ∨
      (t'.status = .done → t'.completedAt.isSome = true ∧
        ∀ t ∈ start.tasks, t'.id = t.id → ∀ c, t.completedAt = some c →
          t'.completedAt = some c) := by
    intro t' ht'
    unfold writeTask at ht'
    split at ht'
    · rename_i existing hfound
      obtain ⟨row, hrow, rfl⟩ := List.mem_map.mp ht'
      by_cases hid : row.id = existing.id
      · right
        rw [if_pos hid]
        intro hdone
        have hcompleted := completed_of_done hdone
        refine ⟨by simp [updatedTask, ConductorTask.completedAt, hcompleted], ?_⟩
        intro t ht hsame c hc
        obtain ⟨t₀, hfound₀, htime⟩ := htask hcompleted
        obtain ⟨t₁, hid₁, hfound₁⟩ := h.found _ _ hfound₀
        rw [hfound] at hfound₁
        obtain rfl := Option.some.inj hfound₁
        have hsame : row.id = t.id := hsame
        obtain rfl := hstart.eq_of_key ht (findTask_spec hfound₀).1
          (hsame.symm.trans (hid.trans hid₁))
        rcases htime with htime | htime
        · rw [htime] at hc
          cases hc
        · exact htime.symm.trans hc
      · rw [if_neg hid]
        exact .inl hrow
    · rename_i hmissing
      rcases List.mem_append.mp ht' with ht' | ht'
      · exact .inl ht'
      · right
        obtain rfl := List.mem_singleton.mp ht'
        intro hdone
        obtain ⟨t₀, hfound₀, -⟩ := htask (completed_of_done hdone)
        obtain ⟨t₁, -, hfound₁⟩ := h.found _ _ hfound₀
        rw [hmissing] at hfound₁
        cases hfound₁
  refine ⟨?_, ?_, keyed_writeTask h.keyed, h.next.trans nextTaskId_le_writeTask, ?_⟩
  · intro t' ht' hdone
    rcases hrows t' ht' with hkept | hwritten
    · exact h.timely t' hkept hdone
    · exact (hwritten hdone).1
  · intro t ht t' ht' hid hdone
    rcases hrows t' ht' with hkept | hwritten
    · exact h.keeps t ht t' hkept hid hdone
    · exact (hwritten hdone).2 t ht hid
  · intro x t hfound
    obtain ⟨t', hid, hfound'⟩ := h.found x t hfound
    obtain ⟨t'', hid', hfound''⟩ := findTask_writeTask
      companyToProjectId task h.keyed hfound'
    exact ⟨t'', hid'.trans hid, hfound''⟩

theorem syncing_writeTasks {entries : List (Entry ConductorTask)}
    (hstart : Keyed Task.id start.tasks start.nextTaskId) (h : Syncing start db)
    (hentries : EntriesTimely start entries)
    (hwritten : writeTasks companyToProjectId db entries = some db') : Syncing start db' := by
  induction entries generalizing db with
  | nil =>
    obtain rfl := Option.some.inj hwritten
    exact h
  | cons entry entries ih =>
    cases entry with
    | malformed => cases hwritten
    | wellFormed task =>
      refine ih (syncing_writeTask hstart h (hentries task List.mem_cons_self)) ?_ hwritten
      intro task' htask'
      exact hentries task' (List.mem_cons_of_mem _ htask')

/-- What a write of the archive may do to a row: its place, its id, and what it is found by stay,
and a row that changes is made done. -/
structure Archived (start : Db) (g : Task → Task) : Prop where
  keys : ∀ t, (g t).id = t.id ∧ (g t).workspaceId = t.workspaceId ∧ (g t).metadata = t.metadata
  rows : ∀ t ∈ start.tasks, g t = t ∨ (g t).status = .done ∧ (g t).completedAt.isSome = true ∧
    ∀ c, t.completedAt = some c → (g t).completedAt = some c

theorem findTask_map {g : Task → Task} (h : Archived start g) (htasks : db.tasks = start.tasks.map g)
    (x : String) : findTask db x = (findTask start x).map g := by
  unfold findTask
  rw [htasks, List.find?_map]
  congr 2
  funext t
  simp [carries, h.keys t]

/-- The loop of the archive. -/
theorem archived_files {files : List (Contents CompletedTask)} {nowMs : Nat}
    (hstart : Keyed Task.id start.tasks start.nextTaskId) (h : FilesTimely start nowMs files) :
    ∃ g, Archived start g ∧
      (files.foldl (archiveFile nowMs) start).tasks = start.tasks.map g ∧
      (files.foldl (archiveFile nowMs) start).nextTaskId = start.nextTaskId := by
  induction files using List.reverseRecOn with
  | nil => exact ⟨id, ⟨fun _ => ⟨rfl, rfl, rfl⟩, fun _ _ => .inl rfl⟩, by simp, rfl⟩
  | append_singleton front file ih =>
    obtain ⟨g, hg, htasks, hnext⟩ := ih fun task hmem => h task (List.mem_append_left _ hmem)
    rw [List.foldl_append, List.foldl_cons, List.foldl_nil]
    generalize front.foldl (archiveFile nowMs) start = db at htasks hnext
    cases file with
    | unreadable => exact ⟨g, hg, htasks, hnext⟩
    | unparsable => exact ⟨g, hg, htasks, hnext⟩
    | parsed task =>
      simp only [archiveFile, archiveTask, findTask_map hg htasks]
      cases hfound : findTask start task.id with
      | none => exact ⟨g, hg, htasks, hnext⟩
      | some t₀ =>
        have hmem₀ := (findTask_spec hfound).1
        simp only [Option.map_some]
        split
        · exact ⟨g, hg, htasks, hnext⟩
        · rename_i hopen
          have hsame : g t₀ = t₀ := by
            rcases hg.rows t₀ hmem₀ with hsame | ⟨hdone, -⟩
            · exact hsame
            · exact absurd hdone hopen
          rw [hsame] at hopen ⊢
          have htime := h task (by simp) t₀ hfound hopen
          refine ⟨_, ⟨?_, ?_⟩, by rw [updateRow, htasks, List.map_map], hnext⟩
          · intro t
            simp only [Function.comp_apply]
            split
            · split <;> exact hg.keys t
            · exact hg.keys t
          · intro t ht
            simp only [Function.comp_apply]
            by_cases hid : (g t).id = t₀.id
            · obtain rfl := hstart.eq_of_key ht hmem₀ ((hg.keys t).1.symm.trans hid)
              right
              simp only [hsame, hopen, if_true, if_false]
              refine ⟨trivial, rfl, ?_⟩
              intro c hc
              rcases htime with htime | htime
              · rw [htime] at hc
                cases hc
              · exact htime.symm.trans hc
            · rw [if_neg hid]
              exact hg.rows t ht

theorem advances_files {files : List (Contents CompletedTask)} {nowMs : Nat}
    (hstart : Keyed Task.id start.tasks start.nextTaskId) (h : FilesTimely start nowMs files) :
    Advances start (files.foldl (archiveFile nowMs) start) := by
  obtain ⟨g, hg, htasks, hnext⟩ := archived_files hstart h
  refine .of_map ?_ htasks hnext
  intro t ht
  rcases hg.rows t ht with hsame | ⟨hdone, htime, hkept⟩
  · rw [hsame]
    exact .refl t
  · exact ⟨(hg.keys t).1, hkept, fun _ => .inr htime⟩

end

/-! ### Runs -/

/-- The operation sends no completion time of its own. -/
def Implicit : Operation → Prop
  | .request _ _ _ request => NoCompletedAt request
  | _ => True

/-- The operation does not meet one of the writers that forget the completion time. -/
def TimelyStep (s : State) : Operation → Prop
  | .wait _ => True
  | .files _ => True
  | .request queries workspaceId caller request =>
    RequestTimely (queries.context s.world workspaceId caller) (db s) request
  | .importIssues params issues => IssuesTimely (db s) params issues
  | .syncConductor draws => ∀ companyToProjectId start, Commits draws s companyToProjectId start →
      EntriesTimely (db s) (readActiveTasksFile s.disk.tasks)
  | .syncCompleted files => FilesTimely (db s) s.world.rooms.tables.now files

theorem perform_timely {s : State} {op : Operation}
    (hkeyed : Keyed Task.id (db s).tasks (db s).nextTaskId) (htimely : Timely (db s))
    (himplicit : Implicit op) (hstep : TimelyStep s op) :
    Timely (db (perform s op)) ∧ KeepsTimes (db s) (db (perform s op)) := by
  have hadvanced : ∀ {after : Db}, Advances (db s) after →
      Timely after ∧ KeepsTimes (db s) after :=
    fun h => ⟨h.timely htimely, h.keepsTimes hkeyed⟩
  cases op with
  | wait milliseconds => exact hadvanced (.of_rows rfl rfl)
  | files disk => exact hadvanced (.of_rows rfl rfl)
  | request queries workspaceId caller request =>
    obtain ⟨effects, hrows⟩ := exists_effects (rows_request s queries workspaceId caller request).symm
    rw [hrows]
    have hserved := advances_serve hkeyed himplicit hstep
    exact hadvanced ⟨hserved.rows, hserved.next⟩
  | importIssues params issues =>
    rw [db_importIssues]
    exact hadvanced (advances_issues s.world.now params hstep).1
  | syncCompleted files =>
    rw [db_syncCompleted]
    exact hadvanced (advances_files hkeyed hstep)
  | syncConductor draws =>
    obtain hkept | hkept | ⟨companyToProjectId, start, hcommits, hwritten⟩ :=
      db_syncConductor s draws
    · rw [hkept]
      exact hadvanced (.of_rows rfl rfl)
    · have htasks := tasks_syncCompanies draws (db s) (readCompaniesFile s.disk.companies)
      rw [hkept]
      exact hadvanced (.of_rows htasks.1 htasks.2)
    · obtain ⟨htasks, hnext⟩ := hcommits.tasks
      have hfind : ∀ x, findTask start x = findTask (db s) x := by
        intro x
        rw [findTask, findTask, htasks]
      have hadvances : Advances (db s) start := .of_rows htasks hnext
      have hsyncing : Syncing (db s) start := by
        refine ⟨hadvances.timely htimely, hadvances.keepsTimes hkeyed, ?_, hadvances.next, ?_⟩
        · rw [htasks, hnext]
          exact hkeyed
        · intro x t hfound
          exact ⟨t, rfl, (hfind x).trans hfound⟩
      have hend := syncing_writeTasks hkeyed hsyncing (hstep _ _ hcommits) hwritten
      exact ⟨hend.timely, hend.keeps⟩

/-- In a run whose operations send no completion time and meet none of the writers that forget it,
every done task has a completion time in every state, and no operation changes it. -/
theorem completion_times_kept {start s : State} (trace : List Operation)
    (hkeyed : Keyed Task.id (db start).tasks (db start).nextTaskId) (htimely : Timely (db start))
    (hmeets : machine.Meets (fun s op => Implicit op ∧ TimelyStep s op) start trace)
    (hrun : machine.run start trace = some s) :
    Timely (db s) ∧ ∀ op, Implicit op → TimelyStep s op →
      Timely (db (perform s op)) ∧ KeepsTimes (db s) (db (perform s op)) := by
  have hpreserved : ∀ s op s',
      (Keyed Task.id (db s).tasks (db s).nextTaskId ∧ Timely (db s)) →
      (Implicit op ∧ TimelyStep s op) → machine.step s op = some s' →
      Keyed Task.id (db s').tasks (db s').nextTaskId ∧ Timely (db s') := by
    intro s op s' hinv hguard hstep
    obtain rfl := Option.some.inj hstep
    exact ⟨keyed_perform hinv.1 op, (perform_timely hinv.1 hinv.2 hguard.1 hguard.2).1⟩
  have hend := Machine.run_invariant hpreserved ⟨hkeyed, htimely⟩ hmeets hrun
  refine ⟨hend.2, ?_⟩
  intro op himplicit hstep
  exact perform_timely hend.1 hend.2 himplicit hstep

def sampleCreation : Json :=
  .object [("title", .string "Ship the report"), ("status", .string "done")]

def sampleApproval (taskId : Rat) : Json := .object
  [("reviewer", .string "aegis"), ("taskId", .number taskId), ("status", .string "approved"),
    ("notes", .string "Complete")]

theorem timely_sampleState :
    Keyed Task.id (db sampleState).tasks (db sampleState).nextTaskId ∧ Timely (db sampleState) := by
  refine ⟨⟨by decide, by decide⟩, ?_⟩
  intro t ht hdone
  obtain rfl := List.mem_singleton.mp ht
  cases hdone

/-- A task that is created done, and then approved. -/
theorem completion_times_kept_sample : ∃ s,
    machine.run sampleState [sampleOperation (.postTask sampleCreation)] = some s ∧
    Timely (db s) ∧
      Timely (db (perform s (sampleOperation (.postReview (sampleApproval 2))))) ∧
      KeepsTimes (db s) (db (perform s (sampleOperation (.postReview (sampleApproval 2))))) := by
  obtain ⟨hkeyed, htimely⟩ := timely_sampleState
  have himplicit : ((validateBody createTaskSchema sampleCreation).toOption.all fun body =>
      (body .completed_at).isNone) = true := by
    decide +kernel
  have hrated : (parseReview (sampleApproval 2)).toOption.all (fun review =>
      ((rowId review.taskId).bind ((db (perform sampleState
        (sampleOperation (.postTask sampleCreation)))).task? 1)).all fun t =>
          t.completedAt.isSome) = true := by
    decide +kernel
  have hcreation : Implicit (sampleOperation (.postTask sampleCreation)) := by
    intro body hbody
    simpa [hbody, Except.toOption] using himplicit
  have hkept := completion_times_kept [sampleOperation (.postTask sampleCreation)] hkeyed htimely
    ⟨⟨hcreation, trivial⟩, fun _ _ => trivial⟩ rfl
  refine ⟨_, rfl, hkept.1, hkept.2 _ trivial ?_⟩
  intro review hreview _ _ t ht
  simp only [hreview, Except.toOption, Option.all_some] at hrated
  exact (Option.all_eq_true ..).mp hrated t ht

/-- An approval by Aegis makes the task done without a completion time. -/
theorem approved_without_time :
    (∀ op ∈ [sampleOperation (.postReview (sampleApproval 1))], Implicit op) ∧
    ((machine.run sampleState [sampleOperation (.postReview (sampleApproval 1))]).map fun s =>
      (db s).tasks.map fun t => (t.status, t.completedAt)) = some [(.done, none)] := by
  constructor
  · intro op hop
    obtain rfl := List.mem_singleton.mp hop
    trivial
  · decide +kernel

end MissionControl.Workload.CompletionTimes
