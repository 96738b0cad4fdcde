import Mathlib.Data.List.Nodup
import MissionControl.Projects.TicketNumbers

/-!
What migration 024 leaves behind. It numbers the tasks of every project by their place in a
sorted list of ids, and sets the counter of the project to the length of that list.
-/

set_option autoImplicit false
set_option relaxedAutoImplicit false

namespace MissionControl.Projects.Migration

open Tasks.Database Tasks.RouteSteps Routes TicketNumbers

/-- What holds while the migration runs: a task without a project has no number, and a task
with one lies in the workspace of the project. -/
structure Migrating (db : Db) : Prop where
  sound : Sound db
  next : 0 < db.nextProjectId
  positive : ∀ p ∈ db.projects, 0 < p.id
  owner : ∀ t ∈ db.tasks, ∀ p ∈ db.projects, t.projectId = some p.id →
    p.workspaceId = t.workspaceId
  waiting : ∀ t ∈ db.tasks, t.projectId = none ∨ t.projectId = some 0 → t.projectTicketNo = none

variable {db : Db}

theorem legacy_migrating (legacy : Legacy) : Migrating legacy.db := by
  have hnone : ∀ t ∈ legacy.db.tasks, ∀ id, t.projectId ≠ some id := by
    intro t ht id hid
    rw [(legacy.unnumbered t ht).1] at hid
    cases hid
  refine ⟨⟨⟨legacy.unique, legacy.fresh, ?_⟩, ⟨List.nodup_nil, ?_, ?_⟩, ⟨?_, ?_⟩⟩,
    Nat.zero_lt_one, ?_, ?_, ?_⟩
  · intro t ht id hid
    exact absurd hid (hnone t ht id)
  · intro p hp
    exact absurd hp List.not_mem_nil
  · intro p hp
    exact absurd hp List.not_mem_nil
  · intro t ht t' _ id n hticket
    exact absurd (congrArg Prod.fst hticket) (hnone t ht id)
  · intro t _ p hp
    exact absurd hp List.not_mem_nil
  · intro p hp
    exact absurd hp List.not_mem_nil
  · intro t _ p hp
    exact absurd hp List.not_mem_nil
  · intro t ht _
    exact (legacy.unnumbered t ht).2

/-! ### The default project -/

theorem ensureDefaultProject_migrating (h : Migrating db) (workspaceId : Nat) :
    Migrating (ensureDefaultProject db workspaceId) := by
  by_cases hexists : (db.projects.any fun p =>
      p.workspaceId = workspaceId ∧ (p.slug = "general" ∨ p.ticketPrefix = "TASK")) = true
  · rw [ensureDefaultProject, if_pos hexists]
    exact h
  · rw [ensureDefaultProject, if_neg hexists]
    refine ⟨h.sound.insertProject rfl ?_, Nat.succ_pos _, ?_, ?_, h.waiting⟩
    · intro p hp hworkspace hpre
      refine hexists (List.any_eq_true.mpr ⟨p, hp, ?_⟩)
      exact decide_eq_true ⟨hworkspace, .inr hpre⟩
    · intro p hp
      rcases List.mem_append.mp hp with hp | hp
      · exact h.positive p hp
      · rw [List.mem_singleton.mp hp]
        exact h.next
    · intro t ht p hp hproject
      rcases List.mem_append.mp hp with hp | hp
      · exact h.owner t ht p hp hproject
      · rw [List.mem_singleton.mp hp] at hproject
        have hlt := h.sound.taskKeys.owned t ht _ hproject
        exact absurd hlt (Nat.lt_irrefl _)

/-- A rewriting of the tasks that leaves every task in a project of its workspace. -/
theorem Migrating.rewrite (h : Migrating db) {g : Task → Task} {projects : List Project}
    (row : KeepsRow g) (keys : ProjectKeys projects db.nextProjectId)
    (same : ∀ p' ∈ projects, ∃ p ∈ db.projects, p'.id = p.id ∧ p'.workspaceId = p.workspaceId)
    (owner : ∀ t ∈ db.tasks, (g t).projectId = t.projectId ∨
      ∃ p ∈ db.projects, (g t).projectId = some p.id ∧ p.workspaceId = t.workspaceId)
    (waiting : ∀ t ∈ db.tasks, (g t).projectId = none ∨ (g t).projectId = some 0 →
      (g t).projectTicketNo = none)
    (numbered : Numbered (db.tasks.map g) projects) :
    Migrating { db with tasks := db.tasks.map g, projects := projects } := by
  refine ⟨⟨h.sound.taskKeys.rewrite row ?_, keys, numbered⟩, h.next, ?_, ?_, ?_⟩
  · intro t ht id hid
    rcases owner t ht with hkept | ⟨p, hp, hmoved, -⟩
    · rw [hkept] at hid
      exact h.sound.taskKeys.owned t ht id hid
    · rw [hmoved] at hid
      rw [← Option.some.inj hid]
      exact h.sound.projectKeys.fresh p hp
  · intro p' hp'
    obtain ⟨p, hp, hid, -⟩ := same p' hp'
    rw [hid]
    exact h.positive p hp
  · intro t' ht' p' hp' hproject
    obtain ⟨t, ht, rfl⟩ := List.mem_map.mp ht'
    obtain ⟨p, hp, hid, hworkspace⟩ := same p' hp'
    rw [(row t).2, hworkspace]
    rw [hid] at hproject
    rcases owner t ht with hkept | ⟨q, hq, hmoved, howner⟩
    · rw [hkept] at hproject
      exact h.owner t ht p hp hproject
    · rw [hmoved] at hproject
      obtain rfl := h.sound.projectKeys.keyed.eq_of_key hq hp (Option.some.inj hproject)
      exact howner
  · intro t' ht'
    obtain ⟨t, ht, rfl⟩ := List.mem_map.mp ht'
    exact waiting t ht

/-- A task that moves into the default project has no number yet. -/
private theorem categorized_cases (h : Migrating db) (workspaceId projectId : Nat) {t : Task}
    (ht : t ∈ db.tasks) : categorized workspaceId projectId t = t ∨
      t.workspaceId = workspaceId ∧
        ticket (categorized workspaceId projectId t) = (some projectId, none) := by
  by_cases hmoves : t.workspaceId = workspaceId ∧ (t.projectId = none ∨ t.projectId = some 0)
  · refine .inr ⟨hmoves.1, ?_⟩
    rw [categorized, if_pos hmoves]
    exact Prod.ext rfl (h.waiting t ht hmoves.2)
  · exact .inl (if_neg hmoves)

private theorem categorized_row (workspaceId projectId : Nat) :
    KeepsRow (categorized workspaceId projectId) :=
  KeepsRow.guarded fun _ => ⟨rfl, rfl⟩

/-- The tasks that have a number stay where they are. -/
private theorem categorized_number (h : Migrating db) (workspaceId projectId : Nat) {t : Task}
    (ht : t ∈ db.tasks) {id n : Nat}
    (hticket : ticket (categorized workspaceId projectId t) = (some id, some n)) :
    ticket t = (some id, some n) := by
  rcases categorized_cases h workspaceId projectId ht with hsame | ⟨-, hmoved⟩
  · rwa [hsame] at hticket
  · rw [hmoved] at hticket
    cases hticket

theorem setTaskProject_migrating (h : Migrating db) {project : Project}
    (hmem : project ∈ db.projects) :
    Migrating (setTaskProject db project.workspaceId project.id) := by
  refine h.rewrite (categorized_row _ _) h.sound.projectKeys (fun p hp => ⟨p, hp, rfl, rfl⟩)
    ?_ ?_ ⟨?_, ?_⟩
  · intro t ht
    rcases categorized_cases h project.workspaceId project.id ht with hsame | ⟨howner, hmoved⟩
    · rw [hsame]
      exact .inl rfl
    · exact .inr ⟨project, hmem, congrArg Prod.fst hmoved, howner.symm⟩
  · intro t ht hwaits
    rcases categorized_cases h project.workspaceId project.id ht with hsame | ⟨-, hmoved⟩
    · rw [hsame] at hwaits ⊢
      exact h.waiting t ht hwaits
    · exact congrArg Prod.snd hmoved
  · intro t ht t' ht' id n hticket hticket'
    obtain ⟨old, hold, rfl⟩ := List.mem_map.mp ht
    obtain ⟨old', hold', rfl⟩ := List.mem_map.mp ht'
    rw [(categorized_row _ _ old).1, (categorized_row _ _ old').1]
    exact h.sound.numbered.distinct old hold old' hold' id n
      (categorized_number h _ _ hold hticket) (categorized_number h _ _ hold' hticket')
  · intro t ht p hp n hticket
    obtain ⟨old, hold, rfl⟩ := List.mem_map.mp ht
    exact h.sound.numbered.bounded old hold p hp n (categorized_number h _ _ hold hticket)

/-! ### Numbering a project -/

/-- A listed task gets its place in the list as its number. -/
def placed (counter : Nat) (ids : List Nat) (t : Task) : Task :=
  if t.id ∈ ids then { t with projectTicketNo := some (counter + ids.idxOf t.id + 1) } else t

theorem setTaskNos_eq (ids : List Nat) (hids : ids.Nodup) (counter : Nat) (tasks : List Task) :
    setTaskNos counter ids tasks = tasks.map (placed counter ids) := by
  induction ids generalizing counter tasks with
  | nil =>
    have hplaced : placed counter [] = id := by
      funext t
      exact if_neg List.not_mem_nil
    rw [setTaskNos, hplaced, List.map_id]
  | cons id ids ih =>
    obtain ⟨hnot, hrest⟩ := List.nodup_cons.mp hids
    rw [setTaskNos, ih hrest, List.map_map]
    refine List.map_congr_left ?_
    intro t _
    by_cases hid : t.id = id
    · subst hid
      simp only [Function.comp_apply, if_true, placed, hnot, if_false, List.mem_cons_self,
        List.idxOf_cons_self, Nat.add_zero]
    · have hplace : (id :: ids).idxOf t.id = ids.idxOf t.id + 1 :=
        List.idxOf_cons_ne ids (Ne.symm hid)
      by_cases hmem : t.id ∈ ids
      · simp only [Function.comp_apply, hid, if_false, placed, hmem, if_true, List.mem_cons,
          or_true, hplace]
        congr 2
        omega
      · simp only [Function.comp_apply, hid, if_false, placed, hmem, List.mem_cons, or_self]

theorem mem_listProjectTasks {workspaceId projectId id : Nat} :
    id ∈ listProjectTasks db workspaceId projectId ↔
      ∃ t ∈ db.tasks, t.workspaceId = workspaceId ∧ t.projectId = some projectId ∧ t.id = id := by
  simp only [listProjectTasks, List.mem_map, List.mem_mergeSort, List.mem_filter,
    decide_eq_true_eq, and_assoc]

theorem listProjectTasks_nodup (unique : (db.tasks.map Task.id).Nodup)
    (workspaceId projectId : Nat) : (listProjectTasks db workspaceId projectId).Nodup := by
  have hfiltered := unique.sublist ((List.filter_sublist
    (p := fun t => decide (t.workspaceId = workspaceId ∧ t.projectId = some projectId))).map Task.id)
  exact ((List.mergeSort_perm _ _).map Task.id).nodup_iff.mpr hfiltered

private theorem placed_row (ids : List Nat) : KeepsRow (placed 0 ids) :=
  KeepsRow.guarded fun _ => ⟨rfl, rfl⟩

private theorem placed_project (ids : List Nat) (t : Task) :
    (placed 0 ids t).projectId = t.projectId := by
  rw [placed]
  split <;> rfl

/-- The ids that are listed are those of the tasks in the project. -/
private theorem listed_iff (h : Migrating db) {project : Project} (hmem : project ∈ db.projects)
    {t : Task} (ht : t ∈ db.tasks) :
    t.id ∈ listProjectTasks db project.workspaceId project.id ↔ t.projectId = some project.id := by
  rw [mem_listProjectTasks]
  constructor
  · rintro ⟨t', ht', -, hproject, hid⟩
    have hsame := h.sound.taskKeys.keyed.eq_of_key ht' ht hid
    rwa [hsame] at hproject
  · intro hproject
    exact ⟨t, ht, (h.owner t ht project hmem hproject).symm, hproject, rfl⟩

/-- A number after the numbering of a project is the place of the task in it, and in another
project the number from before. -/
private theorem placed_number (h : Migrating db) {project : Project} (hmem : project ∈ db.projects)
    {t : Task} (ht : t ∈ db.tasks) {id n : Nat}
    (hticket : ticket (placed 0 (listProjectTasks db project.workspaceId project.id) t) =
      (some id, some n)) :
    id = project.id ∧ t.id ∈ listProjectTasks db project.workspaceId project.id ∧
        n = (listProjectTasks db project.workspaceId project.id).idxOf t.id + 1 ∨
      id ≠ project.id ∧ ticket t = (some id, some n) := by
  by_cases hlisted : t.id ∈ listProjectTasks db project.workspaceId project.id
  · have hproject := (listed_iff h hmem ht).mp hlisted
    rw [placed, if_pos hlisted] at hticket
    obtain ⟨hid, hn⟩ := Prod.mk.inj hticket
    refine .inl ⟨?_, hlisted, ?_⟩
    · exact Option.some.inj (hid.symm.trans hproject)
    · have hplace := Option.some.inj hn
      omega
  · rw [placed, if_neg hlisted] at hticket
    refine .inr ⟨?_, hticket⟩
    intro hid
    subst hid
    exact hlisted ((listed_iff h hmem ht).mpr (congrArg Prod.fst hticket))

/-- `UPDATE projects SET ticket_counter = ? WHERE id = ?`. -/
private theorem counted_same (projectId counter : Nat) (p : Project) :
    (if p.id = projectId then { p with ticketCounter := counter } else p).id = p.id ∧
      (if p.id = projectId then { p with ticketCounter := counter } else p).workspaceId =
        p.workspaceId ∧
      (if p.id = projectId then { p with ticketCounter := counter } else p).ticketPrefix =
        p.ticketPrefix := by
  split <;> exact ⟨rfl, rfl, rfl⟩

theorem numberProject_migrating (h : Migrating db) {project : Project}
    (hmem : project ∈ db.projects) :
    Migrating (numberProject project.workspaceId db project.id) := by
  have hnodup := listProjectTasks_nodup h.sound.taskKeys.unique project.workspaceId project.id
  rw [numberProject, setTaskNos_eq _ hnodup]
  refine h.rewrite (placed_row _) ?_ ?_ ?_ ?_ ⟨?_, ?_⟩
  · exact h.sound.projectKeys.keep (counted_same _ _)
  · intro p' hp'
    obtain ⟨p, hp, rfl⟩ := List.mem_map.mp hp'
    exact ⟨p, hp, (counted_same _ _ p).1, (counted_same _ _ p).2.1⟩
  · intro t _
    exact .inl (placed_project _ t)
  · intro t ht hwaits
    rw [placed_project] at hwaits
    have hlisted : t.id ∉ listProjectTasks db project.workspaceId project.id := by
      intro hlisted
      rw [(listed_iff h hmem ht).mp hlisted] at hwaits
      have hpositive := h.positive project hmem
      rcases hwaits with hnone | hzero
      · cases hnone
      · have hid := Option.some.inj hzero
        omega
    rw [placed, if_neg hlisted]
    exact h.waiting t ht hwaits
  · intro t ht t' ht' id n hticket hticket'
    obtain ⟨old, hold, rfl⟩ := List.mem_map.mp ht
    obtain ⟨old', hold', rfl⟩ := List.mem_map.mp ht'
    rw [(placed_row _ old).1, (placed_row _ old').1]
    rcases placed_number h hmem hold hticket with ⟨hid, hlisted, hn⟩ | ⟨hid, hnumber⟩
    · rcases placed_number h hmem hold' hticket' with ⟨-, -, hn'⟩ | ⟨hid', -⟩
      · refine (List.idxOf_inj hlisted).mp ?_
        omega
      · exact absurd hid hid'
    · rcases placed_number h hmem hold' hticket' with ⟨hid', -, -⟩ | ⟨-, hnumber'⟩
      · exact absurd hid' hid
      · exact h.sound.numbered.distinct old hold old' hold' id n hnumber hnumber'
  · intro t ht p' hp' n hticket
    obtain ⟨old, hold, rfl⟩ := List.mem_map.mp ht
    obtain ⟨p, hp, rfl⟩ := List.mem_map.mp hp'
    rw [(counted_same _ _ p).1] at hticket
    rcases placed_number h hmem hold hticket with ⟨hid, hlisted, hn⟩ | ⟨hid, hnumber⟩
    · have hlt := List.idxOf_lt_length_of_mem hlisted
      rw [if_pos hid, hn]
      exact hlt
    · rw [if_neg hid]
      exact h.sound.numbered.bounded old hold p hp n hnumber

/-! ### The migration -/

/-- Every project of the list is numbered, whatever the earlier ones did to its row. -/
private theorem numbering_migrating (workspaceId : Nat) (ids : List Nat) (db : Db)
    (h : Migrating db)
    (hids : ∀ id ∈ ids, ∃ p ∈ db.projects, p.id = id ∧ p.workspaceId = workspaceId) :
    Migrating (ids.foldl (numberProject workspaceId) db) := by
  induction ids generalizing db with
  | nil => exact h
  | cons id ids ih =>
    obtain ⟨project, hmem, rfl, rfl⟩ := hids id List.mem_cons_self
    refine ih _ (numberProject_migrating h hmem) ?_
    intro id hid
    obtain ⟨p, hp, hsame, hworkspace⟩ := hids id (List.mem_cons_of_mem _ hid)
    refine ⟨_, List.mem_map_of_mem hp, ?_, ?_⟩
    · exact (counted_same _ _ p).1.trans hsame
    · exact (counted_same _ _ p).2.1.trans hworkspace

theorem migrateWorkspace_migrating (h : Migrating db) (workspaceId : Nat) :
    Migrating (migrateWorkspace db workspaceId) := by
  have hensured := ensureDefaultProject_migrating h workspaceId
  rw [migrateWorkspace]
  cases hdefault : defaultProject? (ensureDefaultProject db workspaceId) workspaceId with
  | none => exact hensured
  | some project =>
    have hfound := List.find?_some hdefault
    simp only [decide_eq_true_eq] at hfound
    obtain ⟨rfl, -⟩ := hfound
    refine numbering_migrating _ _ _
      (setTaskProject_migrating hensured (List.mem_of_find?_eq_some hdefault)) ?_
    intro id hid
    obtain ⟨p, hp, rfl⟩ := List.mem_map.mp (List.mem_mergeSort.mp hid)
    obtain ⟨hmem, hworkspace⟩ := List.mem_filter.mp hp
    exact ⟨p, hmem, rfl, of_decide_eq_true hworkspace⟩

/-- The database that the migration leaves is numbered. -/
theorem migration024_sound (legacy : Legacy) : Sound (migration024 legacy) := by
  have hrun : ∀ (workspaces : List Nat) (db : Db), Migrating db →
      Migrating (workspaces.foldl migrateWorkspace db) := by
    intro workspaces
    induction workspaces with
    | nil => exact fun db h => h
    | cons workspaceId workspaces ih =>
      exact fun db h => ih _ (migrateWorkspace_migrating h workspaceId)
  exact (hrun legacy.workspaces legacy.db (legacy_migrating legacy)).sound

end MissionControl.Projects.Migration
