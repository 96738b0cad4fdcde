import MissionControl.Projects.Routes

/-!
The numbers of tasks within their projects, over every request to tasks and projects. A number
is issued by raising the counter of the project, so it is new there; a deletion carries numbers
into another project without issuing them anew.
-/

set_option autoImplicit false
set_option relaxedAutoImplicit false

namespace MissionControl.Projects.TicketNumbers

open MissionControl.Foundations.JsText
open MissionControl.Foundations.Lists (Keyed)
open Tasks.Database Tasks.RouteSteps Routes

/-- What the keys of the task table say, and that projects are older than their tasks. -/
structure TaskKeys (tasks : List Task) (nextTaskId nextProjectId : Nat) : Prop where
  unique : (tasks.map Task.id).Nodup
  fresh : ∀ t ∈ tasks, t.id < nextTaskId
  owned : ∀ t ∈ tasks, ∀ id, t.projectId = some id → id < nextProjectId

/-- What the keys of the project table say. -/
structure ProjectKeys (projects : List Project) (nextProjectId : Nat) : Prop where
  unique : (projects.map Project.id).Nodup
  fresh : ∀ p ∈ projects, p.id < nextProjectId
  prefixes : ∀ p ∈ projects, ∀ q ∈ projects, p.workspaceId = q.workspaceId →
    p.ticketPrefix = q.ticketPrefix → p.id = q.id

/-- No number is used twice in a project, and none is above the project's counter. -/
structure Numbered (tasks : List Task) (projects : List Project) : Prop where
  distinct : ∀ t ∈ tasks, ∀ t' ∈ tasks, ∀ id n, ticket t = (some id, some n) →
    ticket t' = (some id, some n) → t.id = t'.id
  bounded : ∀ t ∈ tasks, ∀ p ∈ projects, ∀ n, ticket t = (some p.id, some n) →
    n ≤ p.ticketCounter

structure Sound (db : Db) : Prop where
  taskKeys : TaskKeys db.tasks db.nextTaskId db.nextProjectId
  projectKeys : ProjectKeys db.projects db.nextProjectId
  numbered : Numbered db.tasks db.projects

/-! ### Keys -/

section

variable {tasks : List Task} {projects : List Project} {nextTaskId nextProjectId : Nat}

theorem TaskKeys.keyed (h : TaskKeys tasks nextTaskId nextProjectId) :
    Keyed Task.id tasks nextTaskId :=
  ⟨h.unique, h.fresh⟩

theorem TaskKeys.rewrite (h : TaskKeys tasks nextTaskId nextProjectId) {g : Task → Task}
    (keeps : KeepsRow g)
    (owned : ∀ t ∈ tasks, ∀ id, (g t).projectId = some id → id < nextProjectId) :
    TaskKeys (tasks.map g) nextTaskId nextProjectId := by
  have hkeyed := h.keyed.map fun t => (keeps t).1
  refine ⟨hkeyed.unique, hkeyed.fresh, ?_⟩
  intro t ht
  obtain ⟨old, hold, rfl⟩ := List.mem_map.mp ht
  exact owned old hold

theorem TaskKeys.insert (h : TaskKeys tasks nextTaskId nextProjectId) {task : Task}
    (hid : task.id = nextTaskId) (howned : ∀ id, task.projectId = some id → id < nextProjectId) :
    TaskKeys (tasks ++ [task]) (nextTaskId + 1) nextProjectId := by
  have hkeyed := h.keyed.snoc hid
  refine ⟨hkeyed.unique, hkeyed.fresh, ?_⟩
  intro t ht
  rcases List.mem_append.mp ht with ht | ht
  · exact h.owned t ht
  · rw [List.mem_singleton.mp ht]
    exact howned

theorem TaskKeys.later (h : TaskKeys tasks nextTaskId nextProjectId) :
    TaskKeys tasks nextTaskId (nextProjectId + 1) := by
  refine ⟨h.unique, h.fresh, ?_⟩
  intro t ht id hid
  have hlt := h.owned t ht id hid
  omega

theorem ProjectKeys.keyed (h : ProjectKeys projects nextProjectId) :
    Keyed Project.id projects nextProjectId :=
  ⟨h.unique, h.fresh⟩

theorem ProjectKeys.edit (h : ProjectKeys projects nextProjectId) {g : Project → Project}
    (keeps : ∀ p, (g p).id = p.id ∧ (g p).workspaceId = p.workspaceId)
    (prefixes : ∀ p ∈ projects, ∀ q ∈ projects, p.workspaceId = q.workspaceId →
      (g p).ticketPrefix = (g q).ticketPrefix → p.id = q.id) :
    ProjectKeys (projects.map g) nextProjectId := by
  have hkeyed := h.keyed.map fun p => (keeps p).1
  refine ⟨hkeyed.unique, hkeyed.fresh, ?_⟩
  intro p hp q hq hworkspace hpre
  obtain ⟨old, hold, rfl⟩ := List.mem_map.mp hp
  obtain ⟨old', hold', rfl⟩ := List.mem_map.mp hq
  rw [(keeps old).2, (keeps old').2] at hworkspace
  rw [(keeps old).1, (keeps old').1]
  exact prefixes old hold old' hold' hworkspace hpre

/-- Rewriting rows whose keys stay. -/
theorem ProjectKeys.keep (h : ProjectKeys projects nextProjectId) {g : Project → Project}
    (keeps : ∀ p, (g p).id = p.id ∧ (g p).workspaceId = p.workspaceId ∧
      (g p).ticketPrefix = p.ticketPrefix) : ProjectKeys (projects.map g) nextProjectId := by
  refine h.edit (fun p => ⟨(keeps p).1, (keeps p).2.1⟩) ?_
  intro p hp q hq hworkspace hpre
  rw [(keeps p).2.2, (keeps q).2.2] at hpre
  exact h.prefixes p hp q hq hworkspace hpre

theorem ProjectKeys.insert (h : ProjectKeys projects nextProjectId) {project : Project}
    (hid : project.id = nextProjectId)
    (hpre : ∀ p ∈ projects, p.workspaceId = project.workspaceId →
      p.ticketPrefix ≠ project.ticketPrefix) :
    ProjectKeys (projects ++ [project]) (nextProjectId + 1) := by
  have hkeyed := h.keyed.snoc hid
  refine ⟨hkeyed.unique, hkeyed.fresh, ?_⟩
  intro p hp q hq hworkspace hsame
  rcases List.mem_append.mp hp with hp | hp
  · rcases List.mem_append.mp hq with hq | hq
    · exact h.prefixes p hp q hq hworkspace hsame
    · rw [List.mem_singleton.mp hq] at hworkspace hsame
      exact absurd hsame (hpre p hp hworkspace)
  · rcases List.mem_append.mp hq with hq | hq
    · rw [List.mem_singleton.mp hp] at hworkspace hsame
      exact absurd hsame.symm (hpre q hq hworkspace.symm)
    · rw [List.mem_singleton.mp hp, List.mem_singleton.mp hq]

theorem ProjectKeys.filter (h : ProjectKeys projects nextProjectId) (keep : Project → Bool) :
    ProjectKeys (projects.filter keep) nextProjectId := by
  have hkeyed := h.keyed.filter keep
  refine ⟨hkeyed.unique, hkeyed.fresh, ?_⟩
  intro p hp q hq
  exact h.prefixes p (List.mem_of_mem_filter hp) q (List.mem_of_mem_filter hq)

/-! ### Numbers -/

/-- Tasks that come from tasks with the same number, and projects from projects that had issued
no more. -/
theorem Numbered.keep (h : Numbered tasks projects) {tasks' : List Task}
    {projects' : List Project}
    (htasks : ∀ t' ∈ tasks', ∃ t ∈ tasks, t'.id = t.id ∧ ticket t' = ticket t)
    (hprojects : ∀ p' ∈ projects', (∃ p ∈ projects, p'.id = p.id ∧
      p.ticketCounter ≤ p'.ticketCounter) ∨ ∀ t ∈ tasks, t.projectId ≠ some p'.id) :
    Numbered tasks' projects' := by
  constructor
  · intro t ht t' ht' id n hticket hticket'
    obtain ⟨old, hold, hid, hsame⟩ := htasks t ht
    obtain ⟨old', hold', hid', hsame'⟩ := htasks t' ht'
    rw [hsame] at hticket
    rw [hsame'] at hticket'
    rw [hid, hid']
    exact h.distinct old hold old' hold' id n hticket hticket'
  · intro t ht p hp n hticket
    obtain ⟨old, hold, -, hsame⟩ := htasks t ht
    rw [hsame] at hticket
    rcases hprojects p hp with ⟨q, hq, hid, hle⟩ | hunused
    · rw [hid] at hticket
      exact Nat.le_trans (h.bounded old hold q hq n hticket) hle
    · exact absurd (congrArg Prod.fst hticket) (hunused old hold)

/-- One task gets the number after the counter of a project, and the counter is raised. -/
theorem Numbered.issue (h : Numbered tasks projects) {tasks' : List Task}
    {projects' : List Project} {project : Project} (hproject : project ∈ projects) (taskId : Nat)
    (htasks : ∀ t' ∈ tasks', (∃ t ∈ tasks, t'.id = t.id ∧ ticket t' = ticket t) ∨
      t'.id = taskId ∧ ticket t' = (some project.id, some (project.ticketCounter + 1)))
    (hprojects : ∀ p' ∈ projects', ∃ p ∈ projects, p'.id = p.id ∧
      p.ticketCounter ≤ p'.ticketCounter ∧
      (p'.id = project.id → p'.ticketCounter = project.ticketCounter + 1)) :
    Numbered tasks' projects' := by
  have hunused : ∀ t ∈ tasks, ticket t ≠ (some project.id, some (project.ticketCounter + 1)) := by
    intro t ht hticket
    have hle := h.bounded t ht project hproject _ hticket
    omega
  constructor
  · intro t ht t' ht' id n hticket hticket'
    rcases htasks t ht with ⟨old, hold, hid, hsame⟩ | ⟨hid, hissued⟩
    · rcases htasks t' ht' with ⟨old', hold', hid', hsame'⟩ | ⟨hid', hissued'⟩
      · rw [hsame] at hticket
        rw [hsame'] at hticket'
        rw [hid, hid']
        exact h.distinct old hold old' hold' id n hticket hticket'
      · rw [hsame] at hticket
        rw [hissued'] at hticket'
        exact absurd (hticket.trans hticket'.symm) (hunused old hold)
    · rcases htasks t' ht' with ⟨old', hold', hid', hsame'⟩ | ⟨hid', hissued'⟩
      · rw [hsame'] at hticket'
        rw [hissued] at hticket
        exact absurd (hticket'.trans hticket.symm) (hunused old' hold')
      · rw [hid, hid']
  · intro t ht p hp n hticket
    obtain ⟨q, hq, hid, hle, hraised⟩ := hprojects p hp
    rcases htasks t ht with ⟨old, hold, -, hsame⟩ | ⟨-, hissued⟩
    · rw [hsame, hid] at hticket
      exact Nat.le_trans (h.bounded old hold q hq n hticket) hle
    · rw [hissued] at hticket
      obtain ⟨hproject, hn⟩ := Prod.mk.inj hticket
      rw [hraised (Option.some.inj hproject).symm, ← Option.some.inj hn]

end

/-! ### Task requests -/

section

variable {db : Db}

theorem project?_mem {workspaceId id : Nat} {project : Project}
    (h : db.project? workspaceId id = some project) :
    project ∈ db.projects ∧ project.id = id ∧ project.workspaceId = workspaceId := by
  have hfound := List.find?_some h
  simp only [decide_eq_true_eq] at hfound
  exact ⟨List.mem_of_find?_eq_some h, hfound⟩

theorem Sound.edit_keys (h : Sound db) (workspaceId id : Nat) {f : Project → Project}
    (keeps : ∀ p, (f p).id = p.id ∧ (f p).workspaceId = p.workspaceId ∧
      (f p).ticketPrefix = p.ticketPrefix) :
    ProjectKeys (db.updateProject workspaceId id f).projects db.nextProjectId := by
  refine h.projectKeys.keep ?_
  intro p
  split
  · exact keeps p
  · exact ⟨rfl, rfl, rfl⟩

/-- The counters after one of them is raised. -/
theorem Sound.raised (h : Sound db) {workspaceId : Nat} {project : Project}
    (row : db.project? workspaceId project.id = some project) :
    ∀ p' ∈ (db.updateProject workspaceId project.id raiseCounter).projects,
      ∃ p ∈ db.projects, p'.id = p.id ∧ p.ticketCounter ≤ p'.ticketCounter ∧
        (p'.id = project.id → p'.ticketCounter = project.ticketCounter + 1) := by
  intro p' hp'
  obtain ⟨hmem, -, hworkspace⟩ := project?_mem row
  obtain ⟨p, hp, rfl⟩ := List.mem_map.mp hp'
  by_cases hmatch : p.id = project.id ∧ p.workspaceId = workspaceId
  · obtain rfl := h.projectKeys.keyed.eq_of_key hp hmem hmatch.1
    refine ⟨p, hp, ?_⟩
    rw [if_pos hmatch]
    exact ⟨rfl, Nat.le_succ _, fun _ => rfl⟩
  · refine ⟨p, hp, ?_⟩
    rw [if_neg hmatch]
    refine ⟨rfl, Nat.le_refl _, ?_⟩
    intro hid
    obtain rfl := h.projectKeys.keyed.eq_of_key hp hmem hid
    exact absurd ⟨rfl, hworkspace⟩ hmatch

theorem sound_rewrite (h : Sound db) {g : Task → Task} (keeps : KeepsRow g)
    (number : KeepsTicket db g) {reviews : List Review} {nextReviewId : Nat}
    {effects : List Effect} : Sound { db with
      tasks := db.tasks.map g
      reviews := reviews
      nextReviewId := nextReviewId
      effects := effects } := by
  refine ⟨h.taskKeys.rewrite keeps ?_, h.projectKeys, h.numbered.keep ?_ ?_⟩
  · intro t ht id hid
    have hsame : (g t).projectId = t.projectId := congrArg Prod.fst (number t ht)
    rw [hsame] at hid
    exact h.taskKeys.owned t ht id hid
  · intro t' ht'
    obtain ⟨t, ht, rfl⟩ := List.mem_map.mp ht'
    exact ⟨t, ht, (keeps t).1, number t ht⟩
  · intro p hp
    exact .inl ⟨p, hp, rfl, Nat.le_refl _⟩

theorem sound_change {ctx : Context} {request : Request} {db' : Db} (h : Sound db)
    (hchange : Change ctx db request db') : Sound db' := by
  cases hchange with
  | kept => exact ⟨h.taskKeys, h.projectKeys, h.numbered⟩
  | @created _ task project effects row id workspaceId number =>
    have hmem := (project?_mem row).1
    refine ⟨?_, h.edit_keys _ _ fun _ => ⟨rfl, rfl, rfl⟩,
      h.numbered.issue hmem db.nextTaskId ?_ (h.raised row)⟩
    · refine h.taskKeys.insert id ?_
      intro id hid
      have hown : task.projectId = some project.id := congrArg Prod.fst number
      rw [hown] at hid
      rw [← Option.some.inj hid]
      exact h.projectKeys.fresh project hmem
    · intro t ht
      rcases List.mem_append.mp ht with ht | ht
      · exact .inl ⟨t, ht, rfl, rfl⟩
      · rw [List.mem_singleton.mp ht]
        exact .inr ⟨id, number⟩
  | @rewritten _ g effects update rewrites =>
    exact sound_rewrite h rewrites.row rewrites.number
  | @moved taskId json f project effects row keeps gate number =>
    have hmem := (project?_mem row).1
    have hticket : ∀ t, (if t.id = taskId ∧ t.workspaceId = ctx.user.workspaceId then f t else t) = t ∨
        t.id = taskId ∧
          (if t.id = taskId ∧ t.workspaceId = ctx.user.workspaceId then f t else t) = f t := by
      intro t
      by_cases ht : t.id = taskId ∧ t.workspaceId = ctx.user.workspaceId
      · exact .inr ⟨ht.1, if_pos ht⟩
      · exact .inl (if_neg ht)
    refine ⟨?_, h.edit_keys _ _ fun _ => ⟨rfl, rfl, rfl⟩,
      h.numbered.issue hmem taskId ?_ (h.raised row)⟩
    · refine h.taskKeys.rewrite keeps.guarded ?_
      intro t ht id hid
      rcases hticket t with hsame | ⟨-, hsame⟩
      · rw [hsame] at hid
        exact h.taskKeys.owned t ht id hid
      · have hown : (f t).projectId = some project.id := congrArg Prod.fst (number t)
        rw [hsame, hown] at hid
        rw [← Option.some.inj hid]
        exact h.projectKeys.fresh project hmem
    · intro t' ht'
      obtain ⟨t, ht, rfl⟩ := List.mem_map.mp ht'
      rcases hticket t with hsame | ⟨hid, hsame⟩
      · rw [hsame]
        exact .inl ⟨t, ht, rfl, rfl⟩
      · rw [hsame]
        exact .inr ⟨(keeps t).1.trans hid, number t⟩
  | reviewed reviews keeps gate number => exact sound_rewrite h keeps number

/-! ### Project requests -/

/-- A deletion that carries into the default project a number above its counter, or one that
the default project has used. -/
def Carries (db : Db) : Event → Prop
  | .project ctx (.deleteProject projectId mode) =>
    ∃ project fallback, db.project? ctx.user.workspaceId projectId = some project ∧
      project.slug ≠ "general" ∧ orElse mode "archive" = "delete" ∧
      defaultProject? db ctx.user.workspaceId = some fallback ∧
      ∃ t ∈ db.tasks, t.workspaceId = ctx.user.workspaceId ∧
        ∃ n, ticket t = (some projectId, some n) ∧
          (fallback.ticketCounter < n ∨ ∃ t' ∈ db.tasks, ticket t' = (some fallback.id, some n))
  | _ => False

/-- A new project has issued no number, and no task is in it yet. -/
theorem Sound.insertProject (h : Sound db) {project : Project} (hid : project.id = db.nextProjectId)
    (hpre : ∀ p ∈ db.projects, p.workspaceId = project.workspaceId →
      p.ticketPrefix ≠ project.ticketPrefix) :
    Sound { db with
      projects := db.projects ++ [project]
      nextProjectId := db.nextProjectId + 1 } := by
  refine ⟨h.taskKeys.later, h.projectKeys.insert hid hpre, h.numbered.keep ?_ ?_⟩
  · intro t ht
    exact ⟨t, ht, rfl, rfl⟩
  · intro p hp
    rcases List.mem_append.mp hp with hp | hp
    · exact .inl ⟨p, hp, rfl, Nat.le_refl _⟩
    · refine .inr ?_
      intro t ht howned
      have hlt := h.taskKeys.owned t ht p.id howned
      rw [List.mem_singleton.mp hp, hid] at hlt
      exact absurd hlt (Nat.lt_irrefl _)

private theorem postProject_sound (ctx : Context) (h : Sound db) (input : ProjectInput) :
    Sound (postProject ctx db input).1 := by
  unfold postProject
  dsimp only
  generalize trim input.name = name
  generalize trim input.description = description
  generalize (if trim input.slug = "" then slugify name else slugify (trim input.slug)) = slug
  generalize normalizePrefix (orElse (trim input.ticketPrefix)
    (String.ofList (takeUnits 5 name.toList))) = ticketPrefix
  split
  · exact h
  · split
    · exact h
    · split
      · exact h
      · split
        · exact h
        · rename_i hexists
          refine h.insertProject rfl ?_
          intro p hp hworkspace hpre
          refine hexists (List.any_eq_true.mpr ⟨p, hp, ?_⟩)
          exact decide_eq_true ⟨hworkspace, .inr hpre⟩

/-- A write to a project that leaves its counter alone. -/
theorem Sound.editProject (h : Sound db) (workspaceId id : Nat) {f : Project → Project}
    (keys : ProjectKeys (db.updateProject workspaceId id f).projects db.nextProjectId)
    (keeps : ∀ p, (f p).id = p.id ∧ (f p).ticketCounter = p.ticketCounter) :
    Sound (db.updateProject workspaceId id f) := by
  refine ⟨h.taskKeys, keys, h.numbered.keep (fun t ht => ⟨t, ht, rfl, rfl⟩) ?_⟩
  intro p' hp'
  obtain ⟨p, hp, rfl⟩ := List.mem_map.mp hp'
  refine .inl ⟨p, hp, ?_⟩
  split
  · rw [(keeps p).1, (keeps p).2]
    exact ⟨rfl, Nat.le_refl _⟩
  · exact ⟨rfl, Nat.le_refl _⟩

private theorem patched_prefixes (h : Sound db) {workspaceId projectId : Nat}
    {patch : ProjectPatch} {ticketPrefix : Option String}
    (hconflict : ¬ (db.projects.any fun p => p.workspaceId = workspaceId ∧
      some p.ticketPrefix = ticketPrefix ∧ p.id ≠ projectId) = true) :
    ∀ p ∈ db.projects, ∀ q ∈ db.projects, p.workspaceId = q.workspaceId →
      (if p.id = projectId ∧ p.workspaceId = workspaceId then patched patch ticketPrefix p
        else p).ticketPrefix =
      (if q.id = projectId ∧ q.workspaceId = workspaceId then patched patch ticketPrefix q
        else q).ticketPrefix → p.id = q.id := by
  cases ticketPrefix with
  | none =>
    intro p hp q hq hworkspace hpre
    have hsame : ∀ r : Project, (if r.id = projectId ∧ r.workspaceId = workspaceId then
        patched patch none r else r).ticketPrefix = r.ticketPrefix := by
      intro r
      split <;> rfl
    rw [hsame, hsame] at hpre
    exact h.projectKeys.prefixes p hp q hq hworkspace hpre
  | some new =>
    have hother : ∀ r ∈ db.projects, r.workspaceId = workspaceId → r.id ≠ projectId →
        r.ticketPrefix ≠ new := by
      intro r hr hworkspace hid hpre
      refine hconflict (List.any_eq_true.mpr ⟨r, hr, ?_⟩)
      exact decide_eq_true ⟨hworkspace, congrArg some hpre, hid⟩
    intro p hp q hq hworkspace hpre
    by_cases hpmatch : p.id = projectId ∧ p.workspaceId = workspaceId
    · by_cases hqmatch : q.id = projectId ∧ q.workspaceId = workspaceId
      · exact hpmatch.1.trans hqmatch.1.symm
      · rw [if_pos hpmatch, if_neg hqmatch] at hpre
        have hqworkspace := hworkspace.symm.trans hpmatch.2
        have hqid : q.id ≠ projectId := fun hid => hqmatch ⟨hid, hqworkspace⟩
        exact absurd hpre.symm (hother q hq hqworkspace hqid)
    · by_cases hqmatch : q.id = projectId ∧ q.workspaceId = workspaceId
      · rw [if_neg hpmatch, if_pos hqmatch] at hpre
        have hpworkspace := hworkspace.trans hqmatch.2
        have hpid : p.id ≠ projectId := fun hid => hpmatch ⟨hid, hpworkspace⟩
        exact absurd hpre (hother p hp hpworkspace hpid)
      · rw [if_neg hpmatch, if_neg hqmatch] at hpre
        exact h.projectKeys.prefixes p hp q hq hworkspace hpre

private theorem patchProject_sound (ctx : Context) (h : Sound db) (projectId : Nat)
    (patch : ProjectPatch) : Sound (patchProject ctx db projectId patch).1 := by
  unfold patchProject
  dsimp only
  split
  · exact h
  · split
    · split <;> exact h
    · split
      · exact h
      · split
        · exact h
        · split
          · exact h
          · rename_i hconflict
            split
            · exact h
            · refine h.editProject _ _ (h.projectKeys.edit ?_ ?_) fun _ => ⟨rfl, rfl⟩
              · intro p
                split <;> exact ⟨rfl, rfl⟩
              · exact patched_prefixes h hconflict

/-! ### Deletion -/

section

variable {workspaceId projectId : Nat} {fallback : Project}

private theorem carried_cases (fallbackId : Nat) (t : Task) :
    carried workspaceId projectId fallbackId t = t ∨
      t.workspaceId = workspaceId ∧ t.projectId = some projectId ∧
        ticket (carried workspaceId projectId fallbackId t) =
          (some fallbackId, t.projectTicketNo) := by
  by_cases ht : t.workspaceId = workspaceId ∧ t.projectId = some projectId
  · refine .inr ⟨ht.1, ht.2, ?_⟩
    simp only [carried, ht, and_self, if_true, ticket]
  · exact .inl (if_neg ht)

private theorem carried_row (fallbackId : Nat) : KeepsRow (carried workspaceId projectId fallbackId) := by
  intro t
  simp only [carried]
  split <;> exact ⟨rfl, rfl⟩

theorem mergeInto_sound (h : Sound db) (hfallback : fallback ∈ db.projects)
    (hkept : ∀ t ∈ db.tasks, t.workspaceId = workspaceId → ∀ n,
      ticket t = (some projectId, some n) → n ≤ fallback.ticketCounter ∧
        ∀ t' ∈ db.tasks, ticket t' ≠ (some fallback.id, some n)) :
    Sound (mergeInto db workspaceId projectId fallback.id) := by
  refine ⟨h.taskKeys.rewrite (carried_row fallback.id) ?_, h.projectKeys.filter _, ?_, ?_⟩
  · intro t ht id hid
    rcases carried_cases fallback.id t with hsame | ⟨-, -, hmoved⟩
    · rw [hsame] at hid
      exact h.taskKeys.owned t ht id hid
    · have hown : (carried workspaceId projectId fallback.id t).projectId = some fallback.id :=
        congrArg Prod.fst hmoved
      rw [hown] at hid
      rw [← Option.some.inj hid]
      exact h.projectKeys.fresh fallback hfallback
  · intro t ht t' ht' id n hticket hticket'
    obtain ⟨old, hold, rfl⟩ := List.mem_map.mp ht
    obtain ⟨old', hold', rfl⟩ := List.mem_map.mp ht'
    rw [(carried_row fallback.id old).1, (carried_row fallback.id old').1]
    rcases carried_cases fallback.id old with hsame | ⟨hworkspace, hproject, hmoved⟩
    · rcases carried_cases fallback.id old' with hsame' | ⟨hworkspace', hproject', hmoved'⟩
      · rw [hsame] at hticket
        rw [hsame'] at hticket'
        exact h.numbered.distinct old hold old' hold' id n hticket hticket'
      · rw [hsame] at hticket
        rw [hmoved'] at hticket'
        obtain ⟨hid, hn⟩ := Prod.mk.inj hticket'
        have hcarried : ticket old' = (some projectId, some n) := Prod.ext hproject' hn
        rw [← hid] at hticket
        exact absurd hticket ((hkept old' hold' hworkspace' n hcarried).2 old hold)
    · rw [hmoved] at hticket
      obtain ⟨hid, hn⟩ := Prod.mk.inj hticket
      have hcarried : ticket old = (some projectId, some n) := Prod.ext hproject hn
      rcases carried_cases fallback.id old' with hsame' | ⟨hworkspace', hproject', hmoved'⟩
      · rw [hsame', ← hid] at hticket'
        exact absurd hticket' ((hkept old hold hworkspace n hcarried).2 old' hold')
      · rw [hmoved'] at hticket'
        have hcarried' : ticket old' = (some projectId, some n) :=
          Prod.ext hproject' (Prod.mk.inj hticket').2
        exact h.numbered.distinct old hold old' hold' projectId n hcarried hcarried'
  · intro t ht p hp n hticket
    obtain ⟨old, hold, rfl⟩ := List.mem_map.mp ht
    have hmem : p ∈ db.projects := List.mem_of_mem_filter hp
    rcases carried_cases fallback.id old with hsame | ⟨hworkspace, hproject, hmoved⟩
    · rw [hsame] at hticket
      exact h.numbered.bounded old hold p hmem n hticket
    · rw [hmoved] at hticket
      obtain ⟨hid, hn⟩ := Prod.mk.inj hticket
      obtain rfl := h.projectKeys.keyed.eq_of_key hfallback hmem (Option.some.inj hid)
      exact (hkept old hold hworkspace n (Prod.ext hproject hn)).1

/-- A number that does not fit the default project spoils the numbering there. -/
theorem mergeInto_spoils (h : Sound db) (hfallback : fallback ∈ db.projects)
    (hother : fallback.id ≠ projectId) {t : Task} (ht : t ∈ db.tasks)
    (hworkspace : t.workspaceId = workspaceId) {n : Nat}
    (hticket : ticket t = (some projectId, some n))
    (hspoils : fallback.ticketCounter < n ∨ ∃ t' ∈ db.tasks, ticket t' = (some fallback.id, some n)) :
    ¬ Numbered (mergeInto db workspaceId projectId fallback.id).tasks
      (mergeInto db workspaceId projectId fallback.id).projects := by
  intro hnumbered
  have hproject : t.projectId = some projectId := congrArg Prod.fst hticket
  have hno : t.projectTicketNo = some n := congrArg Prod.snd hticket
  have hmoved : ticket (carried workspaceId projectId fallback.id t) = (some fallback.id, some n) := by
    simp only [carried, hworkspace, hproject, and_self, if_true, ticket, hno]
  have hmem : carried workspaceId projectId fallback.id t ∈
      (mergeInto db workspaceId projectId fallback.id).tasks := List.mem_map_of_mem ht
  rcases hspoils with habove | ⟨t', ht', hticket'⟩
  · have hstays : fallback ∈ (mergeInto db workspaceId projectId fallback.id).projects :=
      List.mem_filter.mpr ⟨hfallback, decide_eq_true fun hmatch => hother hmatch.1⟩
    have hle := hnumbered.bounded _ hmem fallback hstays n hmoved
    omega
  · have hproject' : t'.projectId = some fallback.id := congrArg Prod.fst hticket'
    have hsame : carried workspaceId projectId fallback.id t' = t' := by
      refine if_neg ?_
      rintro ⟨-, hmatch⟩
      rw [hproject'] at hmatch
      exact hother (Option.some.inj hmatch)
    have hmem' : t' ∈ (mergeInto db workspaceId projectId fallback.id).tasks := by
      rw [← hsame]
      exact List.mem_map_of_mem ht'
    have hids := hnumbered.distinct _ hmem t' hmem' fallback.id n hmoved hticket'
    rw [(carried_row fallback.id t).1] at hids
    obtain rfl := h.taskKeys.keyed.eq_of_key ht ht' hids
    rw [hproject] at hproject'
    exact hother (Option.some.inj hproject').symm

end

private theorem defaultProject?_mem {workspaceId : Nat} {fallback : Project}
    (h : defaultProject? db workspaceId = some fallback) :
    fallback ∈ db.projects ∧ fallback.slug = "general" := by
  have hfound := List.find?_some h
  simp only [decide_eq_true_eq] at hfound
  exact ⟨List.mem_of_find?_eq_some h, hfound.2⟩

private theorem deleteProject_sound (ctx : Context) (h : Sound db) (projectId : Nat) (mode : String)
    (hkept : ¬ Carries db (.project ctx (.deleteProject projectId mode))) :
    Sound (deleteProject ctx db projectId mode).1 := by
  unfold deleteProject
  dsimp only
  cases hrow : db.project? ctx.user.workspaceId projectId with
  | none => exact h
  | some project =>
    dsimp only
    by_cases hgeneral : project.slug = "general"
    · rw [if_pos hgeneral]
      exact h
    · rw [if_neg hgeneral]
      by_cases hmode : orElse mode "archive" = "delete"
      · rw [if_neg (not_not.mpr hmode)]
        cases hdefault : defaultProject? db ctx.user.workspaceId with
        | none => exact h
        | some fallback =>
          refine mergeInto_sound h (defaultProject?_mem hdefault).1 ?_
          intro t ht hworkspace n hticket
          by_contra hspoils
          refine hkept ⟨project, fallback, hrow, hgeneral, hmode, hdefault, t, ht, hworkspace, n,
            hticket, ?_⟩
          by_contra hfits
          rw [not_or, not_lt, not_exists] at hfits
          exact hspoils ⟨hfits.1, fun t' ht' hused => hfits.2 t' ⟨ht', hused⟩⟩
      · rw [if_pos hmode]
        exact h.editProject _ _ (h.edit_keys _ _ fun _ => ⟨rfl, rfl, rfl⟩) fun _ => ⟨rfl, rfl⟩

/-- Every request but a deletion that carries numbers over keeps the numbering. -/
theorem sound_step {ev : Event} {db' : Db} (h : Sound db) (hkept : ¬ Carries db ev)
    (hstep : Routes.machine.step db ev = some db') : Sound db' := by
  cases ev with
  | task ctx request =>
    obtain rfl := Option.some.inj hstep
    exact sound_change h (serve_change h.taskKeys.unique request)
  | project ctx request =>
    obtain rfl := Option.some.inj hstep
    cases request with
    | postProject input => exact postProject_sound ctx h input
    | patchProject projectId patch => exact patchProject_sound ctx h projectId patch
    | deleteProject projectId mode => exact deleteProject_sound ctx h projectId mode hkept

theorem spoiled_step {ev : Event} (h : Sound db) (hcarries : Carries db ev) :
    ∃ db', Routes.machine.step db ev = some db' ∧ ¬ Numbered db'.tasks db'.projects := by
  cases ev with
  | task ctx request => exact hcarries.elim
  | project ctx request =>
    cases request with
    | postProject input => exact hcarries.elim
    | patchProject projectId patch => exact hcarries.elim
    | deleteProject projectId mode =>
      obtain ⟨project, fallback, hrow, hslug, hmode, hdefault, t, ht, hworkspace, n, hticket,
        hspoils⟩ := hcarries
      obtain ⟨hfallback, hgeneral⟩ := defaultProject?_mem hdefault
      obtain ⟨hmem, hid, -⟩ := project?_mem hrow
      have hother : fallback.id ≠ projectId := by
        intro hsame
        obtain rfl := h.projectKeys.keyed.eq_of_key hfallback hmem (hsame.trans hid.symm)
        exact hslug hgeneral
      have hmerged : (deleteProject ctx db projectId mode).1 =
          mergeInto db ctx.user.workspaceId projectId fallback.id := by
        simp only [deleteProject, hrow, hslug, if_false, hmode, ne_eq, not_true_eq_false, hdefault]
      refine ⟨_, rfl, ?_⟩
      show ¬ Numbered (deleteProject ctx db projectId mode).1.tasks
        (deleteProject ctx db projectId mode).1.projects
      rw [hmerged]
      exact mergeInto_spoils h hfallback hother ht hworkspace hticket hspoils

end

end MissionControl.Projects.TicketNumbers
