import MissionControl.Conductor.Companies
import MissionControl.Workload.Operations

/-!
The keys of the tables and the references from tasks to projects, over every run: no two tasks have
one id, and the project of a task has an id that was issued.
-/

set_option autoImplicit false
set_option relaxedAutoImplicit false

namespace MissionControl.Workload.References

open MissionControl.Foundations.Lists
open MissionControl.Foundations.Transition (Machine)
open MissionControl.Tasks.Database
open MissionControl.Tasks.RouteSteps (Request Change ticket serve serve_change)
open MissionControl.Conductor.Files
open MissionControl.Conductor.Sync
open MissionControl.Conductor.Rows
open MissionControl.Conductor.Companies
open GitHubImport (Import GitHubIssue writeIssue)
open Operations

structure Sound (db : Db) : Prop where
  tasks : Keyed Task.id db.tasks db.nextTaskId
  positive : 0 < db.nextProjectId
  projects : ∀ p ∈ db.projects, 0 < p.id ∧ p.id < db.nextProjectId
  referenced : ∀ t ∈ db.tasks, ∀ id ∈ t.projectId, id < db.nextProjectId

section

variable {db db' : Db}

/-- Tasks are rewritten with the projects that they had. -/
theorem Sound.map (h : Sound db) {g : Task → Task} (hid : ∀ t, (g t).id = t.id)
    (hproject : ∀ t ∈ db.tasks, (g t).projectId = t.projectId)
    (htasks : db'.tasks = db.tasks.map g) (hnext : db'.nextTaskId = db.nextTaskId)
    (hprojects : db'.projects = db.projects) (hnextProject : db'.nextProjectId = db.nextProjectId) :
    Sound db' := by
  constructor
  · rw [htasks, hnext]
    exact h.tasks.map hid
  · rw [hnextProject]
    exact h.positive
  · rw [hprojects, hnextProject]
    exact h.projects
  · rw [htasks, hnextProject]
    intro t' ht'
    obtain ⟨t, ht, rfl⟩ := List.mem_map.mp ht'
    rw [hproject t ht]
    exact h.referenced t ht

theorem Sound.insert (h : Sound db) {row : Task} (hid : row.id = db.nextTaskId)
    (hproject : ∀ id ∈ row.projectId, id < db.nextProjectId) :
    Sound { db with tasks := db.tasks ++ [row], nextTaskId := db.nextTaskId + 1 } := by
  refine ⟨h.tasks.snoc hid, h.positive, h.projects, ?_⟩
  intro t ht
  rcases List.mem_append.mp ht with ht | ht
  · exact h.referenced t ht
  · obtain rfl := List.mem_singleton.mp ht
    exact hproject

/-- Rows of projects are rewritten with the ids that they had. -/
theorem Sound.updateProject (h : Sound db) (workspaceId id : Nat) {f : Project → Project}
    (hf : ∀ p, (f p).id = p.id) : Sound (db.updateProject workspaceId id f) := by
  refine ⟨h.tasks, h.positive, ?_, h.referenced⟩
  intro p' hp'
  obtain ⟨p, hp, rfl⟩ := List.mem_map.mp hp'
  split
  · rw [hf]
    exact h.projects p hp
  · exact h.projects p hp

/-! ### Requests -/

theorem sound_serve (h : Sound db) (ctx : Context) (request : Request) :
    Sound (serve ctx db request).1 := by
  have hchange : Change ctx db request (serve ctx db request).1 :=
    serve_change h.tasks.unique request
  revert hchange
  generalize (serve ctx db request).1 = db'
  intro hchange
  cases hchange with
  | kept => exact ⟨h.tasks, h.positive, h.projects, h.referenced⟩
  | @created _ task project effects row hid _ hnumber =>
    have hfresh := (h.projects project (List.mem_of_find?_eq_some row)).2
    have hproject : task.projectId = some project.id := congrArg Prod.fst hnumber
    have hbelow : ∀ id ∈ task.projectId, id < db.nextProjectId := by
      rw [hproject]
      rintro id ⟨⟩
      exact hfresh
    have hraised := h.updateProject ctx.user.workspaceId project.id (f := raiseCounter) fun _ => rfl
    have hinserted := hraised.insert hid hbelow
    exact ⟨hinserted.tasks, hinserted.positive, hinserted.projects, hinserted.referenced⟩
  | rewritten _ rewrites =>
    exact h.map (fun t => (rewrites.row t).1)
      (fun t ht => congrArg Prod.fst (rewrites.number t ht)) rfl rfl rfl rfl
  | @moved taskId _ f project effects row keeps _ hnumber =>
    have hfresh := (h.projects project (List.mem_of_find?_eq_some row)).2
    have hraised := h.updateProject ctx.user.workspaceId project.id (f := raiseCounter) fun _ => rfl
    refine ⟨?_, hraised.positive, hraised.projects, ?_⟩
    · refine h.tasks.map fun t => ?_
      split
      · exact (keeps t).1
      · rfl
    · intro t' ht'
      obtain ⟨t, ht, rfl⟩ := List.mem_map.mp ht'
      split
      · have hproject : (f t).projectId = some project.id := congrArg Prod.fst (hnumber t)
        rw [hproject]
        rintro id ⟨⟩
        exact hfresh
      · exact h.referenced t ht
  | reviewed _ keeps _ hnumber =>
    exact h.map (fun t => (keeps t).1) (fun t ht => congrArg Prod.fst (hnumber t ht)) rfl rfl rfl rfl

/-! ### Imports and synchronizations -/

theorem sound_writeIssue (h : Sound db) (now : Nat) (params : Import) (issue : GitHubIssue) :
    Sound (writeIssue now params db issue) := by
  unfold writeIssue
  split
  · exact h
  · exact h.insert rfl (by rintro id ⟨⟩)

theorem sound_updateRow (h : Sound db) (id : Nat) {f : Task → Task} (hid : ∀ t, (f t).id = t.id)
    (hproject : ∀ t, (f t).projectId = t.projectId) : Sound (updateRow db id f) := by
  refine h.map ?_ ?_ rfl rfl rfl rfl
  · intro t
    split
    · exact hid t
    · rfl
  · intro t _
    split
    · exact hproject t
    · rfl

theorem sound_archiveFile (h : Sound db) (nowMs : Nat) (file : Contents CompletedTask) :
    Sound (archiveFile nowMs db file) := by
  cases file with
  | unreadable => exact h
  | unparsable => exact h
  | parsed task =>
    simp only [archiveFile, archiveTask]
    split
    · exact h
    · split
      · exact h
      · refine sound_updateRow h _ (fun t => ?_) fun t => ?_
        · split <;> rfl
        · split <;> rfl

theorem sound_syncCompany (h : Sound db) {key : String} {company : Entry ConductorCompany}
    {result : CompanyResult} (hstep : CompanyStep db key company db' result) : Sound db' := by
  cases hstep with
  | @updated _ existing name description _ =>
    refine ⟨h.tasks, h.positive, ?_, h.referenced⟩
    intro p' hp'
    obtain ⟨p, hp, rfl⟩ := List.mem_map.mp hp'
    split <;> exact h.projects p hp
  | inserted _ _ =>
    refine ⟨h.tasks, Nat.succ_pos _, ?_, ?_⟩
    · intro p hp
      rcases List.mem_append.mp hp with hp | hp
      · exact ⟨(h.projects p hp).1, (h.projects p hp).2.trans (Nat.lt_succ_self _)⟩
      · obtain rfl := List.mem_singleton.mp hp
        exact ⟨h.positive, Nat.lt_succ_self _⟩
    · intro t ht id hid
      exact (h.referenced t ht id hid).trans (Nat.lt_succ_self _)
  | skipped => exact h
  | threw => exact h

theorem sound_syncCompanies (h : Sound db) (draws : Draws)
    (companies : List (String × Entry ConductorCompany)) :
    Sound (syncCompanies draws db companies).1 := by
  induction companies generalizing db with
  | nil => exact h
  | cons entry companies ih =>
    obtain ⟨key, company⟩ := entry
    have hone := sound_syncCompany h (syncCompany_step draws db key company)
    unfold syncCompanies
    split <;> rename_i heq <;> rw [heq] at hone
    · exact hone
    · exact ih hone
    · exact ih hone

/-- The projects that the companies are mapped to. -/
theorem sound_mapped {companies : List (String × Entry ConductorCompany)}
    {companyToProjectId : List (String × Nat)} (h : Sound db')
    (hmapped : Mapped companies db db' companyToProjectId) (company : String) :
    projectOf companyToProjectId company = companyProject db' companies company ∧
      ∀ id ∈ projectOf companyToProjectId company, id < db'.nextProjectId := by
  have hissued : ∀ id ∈ companyProject db' companies company, 0 < id ∧ id < db'.nextProjectId := by
    intro id hid
    unfold companyProject at hid
    split at hid
    · obtain ⟨p, hp, rfl⟩ := Option.map_eq_some_iff.mp hid
      exact h.projects p (List.mem_of_find?_eq_some hp)
    · cases hid
  have hmap : projectOf companyToProjectId company = companyProject db' companies company := by
    unfold projectOf
    rw [hmapped.map company]
    cases hproject : companyProject db' companies company with
    | none => rfl
    | some id =>
      have hpositive := (hissued id hproject).1
      simp [Nat.pos_iff_ne_zero.mp hpositive]
  refine ⟨hmap, ?_⟩
  rw [hmap]
  exact fun id hid => (hissued id hid).2

theorem sound_writeTask {companyToProjectId : List (String × Nat)} (h : Sound db)
    {task : ConductorTask}
    (hproject : ∀ id ∈ projectOf companyToProjectId task.company, id < db.nextProjectId) :
    Sound (writeTask companyToProjectId db task) ∧
      (writeTask companyToProjectId db task).nextProjectId = db.nextProjectId := by
  unfold writeTask
  split
  · exact ⟨sound_updateRow h _ (fun _ => rfl) fun _ => rfl, rfl⟩
  · exact ⟨h.insert rfl hproject, rfl⟩

theorem sound_writeTasks {companyToProjectId : List (String × Nat)} (h : Sound db)
    {entries : List (Entry ConductorTask)}
    (hproject : ∀ company, ∀ id ∈ projectOf companyToProjectId company, id < db.nextProjectId)
    (hwritten : writeTasks companyToProjectId db entries = some db') : Sound db' := by
  induction entries generalizing db with
  | nil =>
    obtain rfl := Option.some.inj hwritten
    exact h
  | cons entry entries ih =>
    cases entry with
    | malformed => cases hwritten
    | wellFormed task =>
      obtain ⟨hsound, hnext⟩ := sound_writeTask h (hproject task.company)
      refine ih hsound ?_ hwritten
      rw [hnext]
      exact hproject

end

/-! ### Runs -/

theorem sound_perform {s : State} (h : Sound (db s)) (op : Operation) :
    Sound (db (perform s op)) := by
  cases op with
  | wait milliseconds => exact h
  | files disk => exact h
  | request queries workspaceId caller request =>
    obtain ⟨effects, hrows⟩ := exists_effects
      (rows_request s queries workspaceId caller request).symm
    have hserved := sound_serve h (queries.context s.world workspaceId caller) request
    rw [hrows]
    exact ⟨hserved.tasks, hserved.positive, hserved.projects, hserved.referenced⟩
  | importIssues params issues =>
    rw [db_importIssues]
    exact foldl_keeps (P := Sound) (fun _ issue hdb => sound_writeIssue hdb _ params issue) h issues
  | syncCompleted files =>
    rw [db_syncCompleted]
    exact foldl_keeps (P := Sound) (fun _ file hdb => sound_archiveFile hdb _ file) h files
  | syncConductor draws =>
    have hcompanies := sound_syncCompanies h draws (readCompaniesFile s.disk.companies)
    obtain hkept | hkept | ⟨companyToProjectId, start, hcommits, hwritten⟩ :=
      db_syncConductor s draws
    · rw [hkept]
      exact h
    · rw [hkept]
      exact hcompanies
    · rw [hcommits.companies] at hcompanies
      refine sound_writeTasks hcompanies (fun company => ?_) hwritten
      exact (sound_mapped hcompanies (syncCompanies_mapped hcommits.companies) company).2

theorem sound_run {start s : State} {trace : List Operation} (h : Sound (db start))
    (hrun : machine.run start trace = some s) : Sound (db s) := by
  have hpreserved : ∀ s op s', Sound (db s) → machine.step s op = some s' → Sound (db s') := by
    intro s op s' hs hstep
    obtain rfl := Option.some.inj hstep
    exact sound_perform hs op
  exact Machine.invariant_of_run hpreserved h hrun

end MissionControl.Workload.References
