import MissionControl.Conductor.Sync
import MissionControl.Foundations.Lists

/-!
The rows of tasks that the two synchronizations write, apart from what they announce: the task of
the Conductor is looked up by the id in the metadata, and no write takes that id from a row.
-/

set_option autoImplicit false
set_option relaxedAutoImplicit false

namespace MissionControl.Conductor.Rows

open MissionControl.Foundations.Lists
open MissionControl.Foundations.Schema (Json lookup)
open MissionControl.Tasks.Validation
open MissionControl.Tasks.Database
open MissionControl.Tasks.Routes (insertTask)
open MissionControl.Events.Stores
open Files Sync

/-- The rows after the tasks of the file, `none` where an entry throws. -/
def writeTasks (companyToProjectId : List (String × Nat)) : Db → List (Entry ConductorTask) →
    Option Db
  | db, [] => some db
  | _, .malformed :: _ => none
  | db, .wellFormed task :: rest =>
    writeTasks companyToProjectId (writeTask companyToProjectId db task) rest

/-- The rows after the files of the archive. -/
def archiveFile (nowMs : Nat) (db : Db) : Contents CompletedTask → Db
  | .parsed task => archiveTask db nowMs task
  | .unreadable => db
  | .unparsable => db

/-! ### Announcements leave the rows alone -/

theorem tasks_announceTask (w : World) (db : Db) (task : ConductorTask) :
    (announceTask w db task).tasks = w.tasks := by
  unfold announceTask
  split
  · dsimp only
    split <;> rfl
  · rfl

theorem tasks_syncEntries (companyToProjectId : List (String × Nat)) (w : World)
    (stats : SyncStats) (entries : List (Entry ConductorTask)) :
    (∃ db stats', writeTasks companyToProjectId w.tasks entries = some db ∧
      (syncEntries companyToProjectId w stats entries).2 = some stats' ∧
      (syncEntries companyToProjectId w stats entries).1.tasks = db) ∨
    writeTasks companyToProjectId w.tasks entries = none ∧
      (syncEntries companyToProjectId w stats entries).2 = none := by
  induction entries generalizing w stats with
  | nil => exact .inl ⟨w.tasks, stats, rfl, rfl, rfl⟩
  | cons entry entries ih =>
    cases entry with
    | malformed => exact .inr ⟨rfl, rfl⟩
    | wellFormed task =>
      have htasks : (syncTask companyToProjectId w task).tasks =
          writeTask companyToProjectId w.tasks task := tasks_announceTask _ _ _
      have hrest := ih (syncTask companyToProjectId w task) (stats.count w.tasks task)
      rw [htasks] at hrest
      exact hrest

/-- A transaction that fails leaves the rows as they were. -/
theorem tasks_syncTasks (w : World) (companyToProjectId : List (String × Nat))
    (entries : List (Entry ConductorTask)) :
    (∃ db stats, writeTasks companyToProjectId w.tasks entries = some db ∧
      (syncTasks w companyToProjectId entries).2 = some stats ∧
      (syncTasks w companyToProjectId entries).1.tasks = db) ∨
    writeTasks companyToProjectId w.tasks entries = none ∧
      (syncTasks w companyToProjectId entries).2 = none ∧
      (syncTasks w companyToProjectId entries).1.tasks = w.tasks := by
  unfold syncTasks
  obtain ⟨db, stats, hwritten, hstats, htasks⟩ | ⟨hwritten, hstats⟩ :=
    tasks_syncEntries companyToProjectId w ⟨0, 0, 0⟩ entries
  · left
    refine ⟨db, stats, hwritten, ?_⟩
    split
    · rename_i synced stats' heq
      rw [heq] at hstats htasks
      exact ⟨hstats, htasks⟩
    · rename_i attempted heq
      rw [heq] at hstats
      cases hstats
  · right
    refine ⟨hwritten, ?_⟩
    split
    · rename_i synced stats' heq
      rw [heq] at hstats
      cases hstats
    · exact ⟨rfl, rfl⟩

theorem tasks_syncAgent {companies : List (String × Entry ConductorCompany)} {w w' : World}
    {task : ConductorTask} (h : syncAgent companies w task = some w') : w'.tasks = w.tasks := by
  unfold syncAgent at h
  split at h
  · obtain rfl := Option.some.inj h
    rfl
  · dsimp only at h
    generalize (if task.checks.tmuxAlive = true then "busy" else "offline") = status at h
    split at h
    · split at h
      · obtain rfl := Option.some.inj h
        rfl
      · obtain rfl := Option.some.inj h
        rfl
    · split at h
      · obtain rfl := Option.some.inj h
        rfl
      · cases h

theorem tasks_syncConductorAgents (companies : List (String × Entry ConductorCompany)) (w : World)
    (entries : List (Entry ConductorTask)) :
    (syncConductorAgents companies w entries).1.tasks = w.tasks := by
  induction entries generalizing w with
  | nil => rfl
  | cons entry entries ih =>
    cases entry with
    | malformed => rfl
    | wellFormed task =>
      unfold syncConductorAgents
      split
      · rfl
      · rename_i next hnext
        rw [ih, tasks_syncAgent hnext]

/-- A company writes projects only. -/
theorem syncCompany_projects (draws : Draws) (db : Db) (key : String)
    (company : Entry ConductorCompany) :
    ∃ projects nextProjectId, (syncCompany draws db key company).1 =
      { db with projects := projects, nextProjectId := nextProjectId } := by
  unfold syncCompany
  split
  · exact ⟨_, _, rfl⟩
  · dsimp only
    split
    · exact ⟨_, _, rfl⟩
    · exact ⟨_, _, rfl⟩
    · exact ⟨_, _, rfl⟩
    · split
      · exact ⟨_, _, rfl⟩
      · split <;> exact ⟨_, _, rfl⟩

theorem syncCompanies_projects (draws : Draws) (db : Db)
    (companies : List (String × Entry ConductorCompany)) :
    ∃ projects nextProjectId, (syncCompanies draws db companies).1 =
      { db with projects := projects, nextProjectId := nextProjectId } := by
  induction companies generalizing db with
  | nil => exact ⟨_, _, rfl⟩
  | cons entry companies ih =>
    obtain ⟨key, company⟩ := entry
    have hone := syncCompany_projects draws db key company
    unfold syncCompanies
    split
    · rename_i db' heq
      rw [heq] at hone
      exact hone
    · rename_i db' heq
      rw [heq] at hone
      obtain ⟨_, _, rfl⟩ := hone
      exact ih _
    · rename_i db' projectId heq
      rw [heq] at hone
      obtain ⟨_, _, rfl⟩ := hone
      exact ih _

theorem tasks_syncCompanies (draws : Draws) (db : Db)
    (companies : List (String × Entry ConductorCompany)) :
    (syncCompanies draws db companies).1.tasks = db.tasks ∧
      (syncCompanies draws db companies).1.nextTaskId = db.nextTaskId := by
  obtain ⟨projects, nextProjectId, hwritten⟩ := syncCompanies_projects draws db companies
  rw [hwritten]
  exact ⟨rfl, rfl⟩

/-- A transaction that succeeds has met no entry that throws. -/
theorem not_malformed {companyToProjectId : List (String × Nat)} {db db' : Db}
    {entries : List (Entry ConductorTask)}
    (h : writeTasks companyToProjectId db entries = some db') : Entry.malformed ∉ entries := by
  induction entries generalizing db with
  | nil => exact List.not_mem_nil
  | cons entry entries ih =>
    cases entry with
    | malformed => cases h
    | wellFormed task => simpa using ih h

/-- What a run leaves of the tables: projects only where it fails before the end of the
transaction. -/
theorem tasks_syncFiles (draws : Draws) (w : World) (disk : Disk) :
    ((syncFiles draws w disk).2 = .failed ∧ (syncFiles draws w disk).1.tasks =
      (syncCompanies draws w.tasks (readCompaniesFile disk.companies)).1) ∨
    ∃ db companyToProjectId,
      syncCompanies draws w.tasks (readCompaniesFile disk.companies) =
        (db, some companyToProjectId) ∧
      writeTasks companyToProjectId db (readActiveTasksFile disk.tasks) =
        some (syncFiles draws w disk).1.tasks := by
  unfold syncFiles
  dsimp only
  split
  · rename_i db heq
    exact .inl ⟨rfl, by rw [heq]⟩
  · rename_i db companyToProjectId heq
    obtain ⟨db', stats, hwritten, hstats, htasks⟩ | ⟨-, hstats, htasks⟩ :=
      tasks_syncTasks { w with tasks := db } companyToProjectId (readActiveTasksFile disk.tasks)
    · right
      refine ⟨db, companyToProjectId, heq, ?_⟩
      rw [hwritten, ← htasks]
      split
      · rename_i w' hnone
        rw [hnone] at hstats
        cases hstats
      · rename_i w' stats' hsome
        have hagents := tasks_syncConductorAgents (readCompaniesFile disk.companies) w'
          (readActiveTasksFile disk.tasks)
        rw [hsome]
        split
        · rename_i w'' hagent
          rw [hagent] at hagents
          exact congrArg some hagents.symm
        · rename_i w'' hagent
          rw [hagent] at hagents
          exact congrArg some hagents.symm
    · left
      split
      · rename_i w' hnone
        rw [hnone] at htasks
        exact ⟨rfl, by rw [heq]; exact htasks⟩
      · rename_i w' stats' hsome
        rw [hsome] at hstats
        cases hstats

theorem tasks_syncCompletedTasks (w : World) (files : List (Contents CompletedTask)) :
    (syncCompletedTasks w files).tasks = files.foldl (archiveFile w.rooms.tables.now) w.tasks := by
  unfold syncCompletedTasks
  induction files generalizing w with
  | nil => rfl
  | cons file files ih =>
    rw [List.foldl_cons, List.foldl_cons, ih]
    cases file with
    | unreadable => rfl
    | unparsable => rfl
    | parsed task =>
      have hannounced : ∀ w' : World, (announceArchived w' w.tasks task).tasks = w'.tasks ∧
          (announceArchived w' w.tasks task).rooms = w'.rooms := by
        intro w'
        unfold announceArchived
        split
        · exact ⟨rfl, rfl⟩
        · split <;> exact ⟨rfl, rfl⟩
      simp only [hannounced, archiveFile]

/-! ### The id of the Conductor -/

section

variable {companyToProjectId : List (String × Nat)} {db : Db} {task : ConductorTask}

/-- A row carries one id at most. -/
theorem carries_inj {a b : String} {t : Task} (ha : carries a t = true) (hb : carries b t = true) :
    a = b := by
  simp only [carries, decide_eq_true_eq] at ha hb
  simpa using ha.symm.trans hb

/-- The metadata that is written carries the id of the task and no other. -/
theorem carries_metadata {x : String} {t : Task} (h : t.metadata = some task.metadata) :
    carries x t = true ↔ x = task.id := by
  have hlookup : lookup task.metadata "conductor_id" = some (.string task.id) := rfl
  simp only [carries, h, Option.getD_some, hlookup, decide_eq_true_eq, Option.some.injEq,
    Json.string.injEq]
  exact eq_comm

theorem findTask_spec {x : String} {t : Task} (h : findTask db x = some t) :
    t ∈ db.tasks ∧ t.workspaceId = CONDUCTOR_WORKSPACE_ID ∧ carries x t = true := by
  have hfound := List.find?_some h
  simp only [decide_eq_true_eq] at hfound
  exact ⟨List.mem_of_find?_eq_some h, hfound⟩

theorem keyed_updateRow (h : Keyed Task.id db.tasks db.nextTaskId) (id : Nat) {f : Task → Task}
    (hf : ∀ t, (f t).id = t.id) :
    Keyed Task.id (updateRow db id f).tasks (updateRow db id f).nextTaskId := by
  apply h.map
  intro t
  by_cases ht : t.id = id <;> simp [ht, hf]

theorem keyed_writeTask (h : Keyed Task.id db.tasks db.nextTaskId) :
    Keyed Task.id (writeTask companyToProjectId db task).tasks
      (writeTask companyToProjectId db task).nextTaskId := by
  unfold writeTask
  split
  · exact keyed_updateRow h _ fun _ => rfl
  · exact h.snoc rfl

theorem keyed_writeTasks {entries : List (Entry ConductorTask)} {db' : Db}
    (h : Keyed Task.id db.tasks db.nextTaskId)
    (hwritten : writeTasks companyToProjectId db entries = some db') :
    Keyed Task.id db'.tasks db'.nextTaskId := by
  induction entries generalizing db with
  | nil =>
    obtain rfl := Option.some.inj hwritten
    exact h
  | cons entry entries ih =>
    cases entry with
    | malformed => cases hwritten
    | wellFormed task => exact ih (keyed_writeTask h) hwritten

theorem keyed_archiveFile (h : Keyed Task.id db.tasks db.nextTaskId) (nowMs : Nat)
    (file : Contents CompletedTask) : Keyed Task.id (archiveFile nowMs db file).tasks
      (archiveFile nowMs db file).nextTaskId := by
  cases file with
  | unreadable => exact h
  | unparsable => exact h
  | parsed task =>
    simp only [archiveFile, archiveTask]
    split
    · exact h
    · split
      · exact h
      · refine keyed_updateRow h _ fun t => ?_
        split <;> rfl

theorem nextTaskId_le_writeTask :
    db.nextTaskId ≤ (writeTask companyToProjectId db task).nextTaskId := by
  unfold writeTask
  split
  · exact Nat.le_refl _
  · exact Nat.le_succ _

/-- One task of the Conductor touches no row that carries another id. -/
theorem filter_writeTask_other (h : Keyed Task.id db.tasks db.nextTaskId) {x : String}
    (hx : x ≠ task.id) : (writeTask companyToProjectId db task).tasks.filter (carries x) =
      db.tasks.filter (carries x) := by
  have hwritten : ∀ t : Task, t.metadata = some task.metadata → carries x t = false := by
    intro t ht
    simpa [hx] using (carries_metadata (x := x) ht).not
  unfold writeTask
  split
  · rename_i existing hfound
    obtain ⟨hmem, -, hcarries⟩ := findTask_spec hfound
    have hold : ∀ t ∈ db.tasks, t.id = existing.id → carries x t = false := by
      intro t ht hid
      obtain rfl := h.eq_of_key ht hmem hid
      by_contra hcontra
      exact hx (carries_inj (by simpa using hcontra) hcarries)
    simp only [updateRow]
    generalize db.tasks = tasks at hold
    induction tasks with
    | nil => rfl
    | cons t tasks ih =>
      have hrest := ih fun t ht => hold t (List.mem_cons_of_mem _ ht)
      by_cases hid : t.id = existing.id
      · have hnew := hwritten (updatedTask task t) rfl
        simp [hid, hnew, hold t List.mem_cons_self hid, hrest]
      · simp [hid, List.filter_cons, hrest]
  · have hnew := hwritten (newTask db.nextTaskId companyToProjectId task) rfl
    simp [insertTask, hnew]

/-- The task is looked up among the rows that carry its id. -/
theorem findTask_eq (db : Db) (x : String) : findTask db x =
    (db.tasks.filter (carries x)).find? fun t => t.workspaceId = CONDUCTOR_WORKSPACE_ID := by
  rw [findTask, List.find?_filter]
  congr 1
  funext t
  simp [Bool.and_comm]

/-- The rows that carry the id of the task itself. -/
theorem filter_writeTask_self (h : Keyed Task.id db.tasks db.nextTaskId) :
    (writeTask companyToProjectId db task).tasks.filter (carries task.id) =
      match findTask db task.id with
      | some existing => (db.tasks.filter (carries task.id)).map fun t =>
          if t.id = existing.id then updatedTask task t else t
      | none => db.tasks.filter (carries task.id) ++
          [newTask db.nextTaskId companyToProjectId task] := by
  unfold writeTask
  cases hfound : findTask db task.id with
  | some existing =>
    obtain ⟨hmem, -, hcarries⟩ := findTask_spec hfound
    dsimp only [updateRow]
    rw [List.filter_map]
    congr 1
    apply List.filter_congr
    intro t ht
    by_cases hid : t.id = existing.id
    · obtain rfl := h.eq_of_key ht hmem hid
      have hnew : carries task.id (updatedTask task t) = true := (carries_metadata rfl).mpr rfl
      simp [hnew, hcarries]
    · simp [hid]
  | none =>
    have hnew : carries task.id (newTask db.nextTaskId companyToProjectId task) = true :=
      (carries_metadata rfl).mpr rfl
    simp [insertTask, hnew]

variable (companyToProjectId task) in
/-- The row of the task after its entry: the one that it had, or a new one. -/
theorem findTask_writeTask_self (h : Keyed Task.id db.tasks db.nextTaskId) :
    ∃ t, findTask (writeTask companyToProjectId db task) task.id = some t ∧
      t.status = mcStatus task.status ∧
      ∀ existing, findTask db task.id = some existing → t.id = existing.id := by
  rw [findTask_eq, filter_writeTask_self h]
  cases hfound : findTask db task.id with
  | some existing =>
    rw [findTask_eq] at hfound
    dsimp only
    rw [List.find?_map]
    have hsame : ((fun t : Task => decide (t.workspaceId = CONDUCTOR_WORKSPACE_ID)) ∘ fun t =>
        if t.id = existing.id then updatedTask task t else t) =
        fun t => decide (t.workspaceId = CONDUCTOR_WORKSPACE_ID) := by
      funext t
      by_cases hid : t.id = existing.id <;> simp [hid, updatedTask]
    rw [hsame, hfound]
    refine ⟨updatedTask task existing, by simp, rfl, ?_⟩
    rintro _ ⟨⟩
    rfl
  | none =>
    rw [findTask_eq] at hfound
    dsimp only
    rw [List.find?_append, hfound, Option.none_or]
    have hworkspace : (newTask db.nextTaskId companyToProjectId task).workspaceId =
        CONDUCTOR_WORKSPACE_ID := rfl
    refine ⟨newTask db.nextTaskId companyToProjectId task, ?_, rfl, ?_⟩
    · simp [hworkspace]
    · rintro existing ⟨⟩

theorem findTask_writeTask_other (h : Keyed Task.id db.tasks db.nextTaskId) {x : String}
    (hx : x ≠ task.id) :
    findTask (writeTask companyToProjectId db task) x = findTask db x := by
  rw [findTask_eq, filter_writeTask_other h hx, ← findTask_eq]

variable (companyToProjectId task) in
/-- A task that is found stays where it is. -/
theorem findTask_writeTask (h : Keyed Task.id db.tasks db.nextTaskId) {x : String} {t : Task}
    (hfound : findTask db x = some t) : ∃ t', t'.id = t.id ∧
      findTask (writeTask companyToProjectId db task) x = some t' := by
  by_cases hx : x = task.id
  · subst hx
    obtain ⟨t', hfound', -, hid⟩ := findTask_writeTask_self companyToProjectId task h
    exact ⟨t', hid t hfound, hfound'⟩
  · exact ⟨t, rfl, (findTask_writeTask_other h hx).trans hfound⟩

/-- The loop keeps what is found, and finds every task that it has written. -/
theorem findTask_writeTasks {entries : List (Entry ConductorTask)} {db' : Db}
    (h : Keyed Task.id db.tasks db.nextTaskId)
    (hwritten : writeTasks companyToProjectId db entries = some db') :
    (∀ x t, findTask db x = some t → ∃ t', t'.id = t.id ∧ findTask db' x = some t') ∧
      ∀ task, Entry.wellFormed task ∈ entries → (findTask db' task.id).isSome = true := by
  induction entries generalizing db with
  | nil =>
    obtain rfl := Option.some.inj hwritten
    exact ⟨fun _ t ht => ⟨t, rfl, ht⟩, fun _ hmem => by cases hmem⟩
  | cons entry entries ih =>
    cases entry with
    | malformed => cases hwritten
    | wellFormed head =>
      obtain ⟨hkept, hrest⟩ := ih (keyed_writeTask h) hwritten
      constructor
      · intro x t ht
        obtain ⟨t', hid, ht'⟩ := findTask_writeTask companyToProjectId head h ht
        obtain ⟨t'', hid', ht''⟩ := hkept x t' ht'
        exact ⟨t'', hid'.trans hid, ht''⟩
      · intro task hmem
        rcases List.mem_cons.mp hmem with hhead | htail
        · obtain rfl := Entry.wellFormed.inj hhead
          obtain ⟨t, ht, -⟩ := findTask_writeTask_self companyToProjectId task h
          obtain ⟨t', -, ht'⟩ := hkept _ t ht
          rw [ht']
          rfl
        · exact hrest task htail

end

end MissionControl.Conductor.Rows
