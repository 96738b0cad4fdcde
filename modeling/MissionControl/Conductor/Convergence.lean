import MissionControl.Workload.References

/-!
What a synchronization makes of the tasks of the Conductor, after any history. A task whose row is
inserted lacks the columns of the outcome, and a row that is updated keeps its title and its
project; apart from these, a run brings every row up to its entry.
-/

set_option autoImplicit false
set_option relaxedAutoImplicit false

namespace MissionControl.Conductor.Convergence

open MissionControl.Foundations.Lists
open MissionControl.Tasks.Database
open MissionControl.Tasks.Routes (insertTask)
open MissionControl.Workload.Operations
open MissionControl.Workload.References
open Files Sync Rows Companies

/-- The row has the values that the entry is mapped to. -/
structure Mirrors (db : Db) (companies : List (String × Entry ConductorCompany))
    (task : ConductorTask) (row : Task) : Prop where
  status : row.status = mcStatus task.status
  priority : row.priority = task.priority
  title : row.title = task.title
  project : row.projectId = companyProject db companies task.company
  tags : row.tags = some task.tags
  metadata : row.metadata = some task.metadata
  outcome : row.outcome = task.outcome
  completedAt : row.completedAt = task.completedAt

/-- One row carries the id of the task, and it has the mapped values. -/
def Converged (db : Db) (companies : List (String × Entry ConductorCompany)) (task : ConductorTask) :
    Prop :=
  ∃ row, db.tasks.filter (carries task.id) = [row] ∧ Mirrors db companies task row

/-- Before the run: the task has no row and the Conductor is not through with it, or it has one row,
of the workspace of the Conductor, with the title and the project that the entry is mapped to. -/
def Ready (db : Db) (companies : List (String × Entry ConductorCompany)) (task : ConductorTask) :
    Prop :=
  match db.tasks.filter (carries task.id) with
  | [] => task.completed = false
  | [row] => row.workspaceId = CONDUCTOR_WORKSPACE_ID ∧ row.title = task.title ∧
      row.projectId = companyProject db companies task.company ∧ Known db companies task.company
  | _ => False

/-- The ids that a version of the file lists. -/
def entryIds (entries : List (Entry ConductorTask)) : List String :=
  entries.filterMap fun
    | .wellFormed task => some task.id
    | .malformed => none

theorem mem_entryIds {entries : List (Entry ConductorTask)} {task : ConductorTask}
    (h : Entry.wellFormed task ∈ entries) : task.id ∈ entryIds entries :=
  List.mem_filterMap.mpr ⟨_, h, rfl⟩

/-! ### The rows of one task -/

section

variable {companyToProjectId : List (String × Nat)} {db db' : Db}
  {entries : List (Entry ConductorTask)}

theorem filter_writeTasks_other (h : Keyed Task.id db.tasks db.nextTaskId) {x : String}
    (hx : x ∉ entryIds entries) (hwritten : writeTasks companyToProjectId db entries = some db') :
    db'.tasks.filter (carries x) = db.tasks.filter (carries x) := by
  induction entries generalizing db with
  | nil =>
    obtain rfl := Option.some.inj hwritten
    rfl
  | cons entry entries ih =>
    cases entry with
    | malformed => cases hwritten
    | wellFormed task =>
      rw [entryIds, List.filterMap_cons, List.mem_cons, not_or] at hx
      rw [ih (keyed_writeTask h) hx.2 hwritten, filter_writeTask_other h hx.1]

/-- Where ids are unique, the rows of a task are those after its own entry. -/
theorem filter_writeTasks (h : Keyed Task.id db.tasks db.nextTaskId)
    (hunique : (entryIds entries).Nodup) {task : ConductorTask}
    (hmem : Entry.wellFormed task ∈ entries)
    (hwritten : writeTasks companyToProjectId db entries = some db') :
    ∃ before, Keyed Task.id before.tasks before.nextTaskId ∧
      before.tasks.filter (carries task.id) = db.tasks.filter (carries task.id) ∧
      db'.tasks.filter (carries task.id) =
        (writeTask companyToProjectId before task).tasks.filter (carries task.id) := by
  induction entries generalizing db with
  | nil => cases hmem
  | cons entry entries ih =>
    cases entry with
    | malformed => cases hwritten
    | wellFormed head =>
      rw [entryIds, List.filterMap_cons, List.nodup_cons] at hunique
      rcases List.mem_cons.mp hmem with hhead | htail
      · obtain rfl := Entry.wellFormed.inj hhead
        exact ⟨db, h, rfl, filter_writeTasks_other (keyed_writeTask h) hunique.1 hwritten⟩
      · obtain ⟨before, hkeyed, hsame, hafter⟩ := ih (keyed_writeTask h) hunique.2 htail hwritten
        have hne : task.id ≠ head.id := by
          intro heq
          exact hunique.1 (heq ▸ mem_entryIds htail)
        exact ⟨before, hkeyed, hsame.trans (filter_writeTask_other h hne), hafter⟩

theorem projects_writeTask (task : ConductorTask) :
    (writeTask companyToProjectId db task).projects = db.projects := by
  unfold writeTask
  split <;> rfl

/-- Tasks leave the projects alone. -/
theorem projects_writeTasks (hwritten : writeTasks companyToProjectId db entries = some db') :
    db'.projects = db.projects := by
  induction entries generalizing db with
  | nil =>
    obtain rfl := Option.some.inj hwritten
    rfl
  | cons entry entries ih =>
    cases entry with
    | malformed => cases hwritten
    | wellFormed task => rw [ih hwritten, projects_writeTask]

theorem companyProject_congr (h : db'.projects = db.projects)
    (companies : List (String × Entry ConductorCompany)) (company : String) :
    companyProject db' companies company = companyProject db companies company := by
  simp only [companyProject, projectId, findProject, h]

end

/-! ### One entry -/

section

variable {companyToProjectId : List (String × Nat)} {db : Db} {task : ConductorTask}

/-- The new row has the mapped values unless the Conductor is through with the task. -/
theorem mirrors_newTask_iff (id : Nat) {companies : List (String × Entry ConductorCompany)}
    (hproject : projectOf companyToProjectId task.company =
      companyProject db companies task.company) :
    Mirrors db companies task (newTask id companyToProjectId task) ↔ task.completed = false := by
  constructor
  · intro h
    have htime : none = task.completedAt := h.completedAt
    cases hcompleted : task.completed with
    | false => rfl
    | true => simp [ConductorTask.completedAt, hcompleted] at htime
  · intro hopen
    have houtcome : task.outcome = none := by
      simp only [ConductorTask.completed, decide_eq_false_iff_not, not_or] at hopen
      simp [ConductorTask.outcome, hopen]
    have htime : task.completedAt = none := by simp [ConductorTask.completedAt, hopen]
    exact ⟨rfl, rfl, rfl, hproject, rfl, rfl, houtcome.symm, htime.symm⟩

/-- The row after an update has the mapped values if it had the two that are not written. -/
theorem mirrors_updatedTask_iff {companies : List (String × Entry ConductorCompany)} {row : Task} :
    Mirrors db companies task (updatedTask task row) ↔
      row.title = task.title ∧ row.projectId = companyProject db companies task.company :=
  ⟨fun h => ⟨h.title, h.project⟩, fun h => ⟨rfl, rfl, h.1, h.2, rfl, rfl, rfl, rfl⟩⟩

/-- The rows of a task after its entry, by those before it. -/
theorem filter_writeTask_cases (h : Keyed Task.id db.tasks db.nextTaskId) {row : Task} :
    (writeTask companyToProjectId db task).tasks.filter (carries task.id) = [row] ↔
      db.tasks.filter (carries task.id) = [] ∧
          row = newTask db.nextTaskId companyToProjectId task ∨
        ∃ existing, db.tasks.filter (carries task.id) = [existing] ∧
          existing.workspaceId = CONDUCTOR_WORKSPACE_ID ∧ row = updatedTask task existing := by
  rw [filter_writeTask_self h, findTask_eq]
  generalize db.tasks.filter (carries task.id) = rows
  match rows with
  | [] => simp [eq_comm]
  | [existing] =>
    by_cases hworkspace : existing.workspaceId = CONDUCTOR_WORKSPACE_ID
    · simp [hworkspace, eq_comm]
    · simp [hworkspace]
  | first :: second :: rest =>
    split <;> simp

end

/-! ### Runs -/

/-- One entry of a run that commits. -/
theorem converged_iff_ready {s : State} {draws : Draws} {companyToProjectId : List (String × Nat)}
    {start : Db} {entries : List (Entry ConductorTask)} {db' : Db} (hsound : Sound (db s))
    (hcommits : Commits draws s companyToProjectId start)
    (hunique : (entryIds entries).Nodup) {task : ConductorTask}
    (hmem : Entry.wellFormed task ∈ entries)
    (hwritten : writeTasks companyToProjectId start entries = some db') :
    Converged db' (readCompaniesFile s.disk.companies) task ↔
      Ready (db s) (readCompaniesFile s.disk.companies) task := by
  have hmapped := syncCompanies_mapped hcommits.companies
  have hstart : Sound start := by
    have hcompanies := sound_syncCompanies hsound draws (readCompaniesFile s.disk.companies)
    rwa [hcommits.companies] at hcompanies
  have hproject : ∀ company, companyProject db' (readCompaniesFile s.disk.companies) company =
      companyProject start (readCompaniesFile s.disk.companies) company :=
    companyProject_congr (projects_writeTasks hwritten) _
  obtain ⟨before, hkeyed, hsame, hafter⟩ := filter_writeTasks hstart.tasks hunique hmem hwritten
  rw [hcommits.tasks.1] at hsame
  have hrow : ∀ row ∈ (db s).tasks.filter (carries task.id),
      ∀ id ∈ row.projectId, id < (db s).nextProjectId :=
    fun row hrow => hsound.referenced row (List.mem_of_mem_filter hrow)
  simp only [Converged, Ready, hafter, filter_writeTask_cases hkeyed, hsame]
  generalize (db s).tasks.filter (carries task.id) = rows at hrow
  match rows with
  | [] =>
    have hnew := mirrors_newTask_iff before.nextTaskId
      ((sound_mapped hstart hmapped task.company).1.trans (hproject task.company).symm)
    simpa using hnew
  | [existing] =>
    have hkept := eq_companyProject_iff hmapped (hrow existing (List.mem_singleton_self _))
      task.company
    simp only [List.cons_ne_nil, false_and, false_or, List.cons.injEq, and_true]
    constructor
    · rintro ⟨row, ⟨_, rfl, hworkspace, rfl⟩, hmirrors⟩
      obtain ⟨htitle, hprojectId⟩ := mirrors_updatedTask_iff.mp hmirrors
      exact ⟨hworkspace, htitle, hkept.mp (hprojectId.trans (hproject task.company))⟩
    · rintro ⟨hworkspace, htitle, hprojectId⟩
      refine ⟨_, ⟨existing, rfl, hworkspace, rfl⟩, mirrors_updatedTask_iff.mpr ⟨htitle, ?_⟩⟩
      exact (hkept.mpr hprojectId).trans (hproject task.company).symm
  | first :: second :: rest => simp

/-- After any history, a run that finds changes and succeeds makes every task of the Conductor
converge exactly when each of them is ready for it. -/
theorem run_converges_iff {start s : State} (trace : List Operation) (hsound : Sound (db start))
    (hrun : machine.run start trace = some s) (draws : Draws)
    (hunique : (entryIds (readActiveTasksFile s.disk.tasks)).Nodup)
    (hsynced : ∃ tasks stats projects, (syncConductorData draws s).2 = .synced tasks stats projects) :
    (∀ task, Entry.wellFormed task ∈ readActiveTasksFile s.disk.tasks →
      Converged (db (perform s (.syncConductor draws))) (readCompaniesFile s.disk.companies) task) ↔
    ∀ task, Entry.wellFormed task ∈ readActiveTasksFile s.disk.tasks →
      Ready (db s) (readCompaniesFile s.disk.companies) task := by
  obtain ⟨companyToProjectId, start', hcommits, hwritten⟩ := commits_of_synced hsynced
  refine forall_congr' fun task => forall_congr' fun hmem => ?_
  exact converged_iff_ready (sound_run hsound hrun) hcommits hunique hmem hwritten

theorem sound_sampleState : Sound (db sampleState) := by
  refine ⟨⟨by decide, by decide⟩, by decide, by decide, ?_⟩
  intro t ht
  obtain rfl := List.mem_singleton.mp ht
  rintro id ⟨⟩
  decide

/-- Two versions of a file: a task is inserted, and then updated by the second run. -/
def sampleHistory : List Operation :=
  [.files (sampleDisk [.wellFormed (sampleConductorTask "acme-1" "running")]),
    .syncConductor sampleDraws,
    .files (sampleDisk [.wellFormed (sampleConductorTask "acme-1" "merged"),
      .wellFormed (sampleConductorTask "acme-2" "running")])]

theorem run_converges_iff_sample : ∃ s, machine.run sampleState sampleHistory = some s ∧
    ((∀ task, Entry.wellFormed task ∈ readActiveTasksFile s.disk.tasks →
      Converged (db (perform s (.syncConductor sampleDraws)))
        (readCompaniesFile s.disk.companies) task) ↔
    ∀ task, Entry.wellFormed task ∈ readActiveTasksFile s.disk.tasks →
      Ready (db s) (readCompaniesFile s.disk.companies) task) := by
  refine ⟨_, rfl, run_converges_iff sampleHistory sound_sampleState rfl sampleDraws
    (by decide +kernel) ⟨2, ⟨1, 1, 1⟩, 0, by decide +kernel⟩⟩

/-- A task that is merged when it first appears. -/
def sampleMerged : ConductorTask := sampleConductorTask "acme-1" "merged"

/-- Its row lacks the outcome and the time, after a run that finds changes and succeeds. -/
theorem merged_task_inserted_without_outcome : Sound (db sampleState) ∧
    ∃ s, machine.run sampleState [.files (sampleDisk [.wellFormed sampleMerged])] = some s ∧
    (entryIds (readActiveTasksFile s.disk.tasks)).Nodup ∧
    (syncConductorData sampleDraws s).2 = .synced 1 ⟨1, 0, 0⟩ 0 ∧
    Entry.wellFormed sampleMerged ∈ readActiveTasksFile s.disk.tasks ∧
    ¬ Converged (db (perform s (.syncConductor sampleDraws)))
      (readCompaniesFile s.disk.companies) sampleMerged := by
  refine ⟨sound_sampleState, _, rfl, by decide +kernel, by decide +kernel,
    List.mem_singleton_self _, ?_⟩
  rintro ⟨row, hrow, hmirrors⟩
  have houtcome : ((db (perform (perform sampleState
      (.files (sampleDisk [.wellFormed sampleMerged]))) (.syncConductor sampleDraws))).tasks.filter
        (carries sampleMerged.id)).map Task.outcome = [none] := by
    decide +kernel
  rw [show (db (perform (perform sampleState
      (.files (sampleDisk [.wellFormed sampleMerged]))) (.syncConductor sampleDraws))).tasks.filter
        (carries sampleMerged.id) = [row] from hrow] at houtcome
  obtain ⟨hnone, -⟩ := List.cons.inj houtcome
  have hsome := hmirrors.outcome
  rw [hnone] at hsome
  cases hsome

end MissionControl.Conductor.Convergence
