import MissionControl.Conductor.Convergence
import MissionControl.Events.Announcements

/-!
What a synchronization with the Conductor announces. Every entry announces something at once: the
row that it updates, with the status that it has from then on, or the activity of a creation.
-/

set_option autoImplicit false
set_option relaxedAutoImplicit false

namespace MissionControl.Conductor.SyncEvents

open MissionControl.Foundations.JsText
open MissionControl.Foundations.Lists
open MissionControl.Foundations.Schema (Json lookup)
open MissionControl.Tasks.Validation
open MissionControl.Tasks.Database
open MissionControl.Events.Bus
open MissionControl.Events.Stores
open MissionControl.Events.Announcements
open Files Sync Rows Convergence

/-- The event of a row that an entry updates. -/
def updatedEvent (existing : Task) (task : ConductorTask) : Broadcast :=
  ⟨.taskUpdated, .object
    [("id", natural existing.id), ("status", .string (mcStatus task.status).text),
      ("conductor_status", .string task.status), ("pr_url", text task.pr.url),
      ("ci_status", text task.checks.ciStatus)]⟩

/-- The entry that announces this event, with the rows that it meets. -/
def Tells (companyToProjectId : List (String × Nat)) (db : Db) (entries : List (Entry ConductorTask))
    (event : Broadcast) : Prop :=
  ∃ front task back before existing, entries = front ++ Entry.wellFormed task :: back ∧
    writeTasks companyToProjectId db front = some before ∧
    findTask before task.id = some existing ∧ event = updatedEvent existing task

/-- Two entries for one row that both find it agree on its status. -/
def Agree (db : Db) (entries : List (Entry ConductorTask)) : Prop :=
  ∀ front task mid task' back,
    entries = front ++ Entry.wellFormed task :: (mid ++ Entry.wellFormed task' :: back) →
    task'.id = task.id → ((findTask db task.id).isSome = true ∨ task.id ∈ entryIds front) →
    mcStatus task.status = mcStatus task'.status

/-! ### One entry -/

section

variable {companyToProjectId : List (String × Nat)}

theorem tasks_syncTask (w : World) (task : ConductorTask) :
    (syncTask companyToProjectId w task).tasks = writeTask companyToProjectId w.tasks task :=
  tasks_announceTask _ _ _

variable (companyToProjectId) in
theorem syncTask_announces (w : World) (task : ConductorTask) :
    ∃ events, Announces w (syncTask companyToProjectId w task) events ∧ events ≠ [] ∧
      ∀ event, TellsStatus event → (event ∈ events ↔
        ∃ existing, findTask w.tasks task.id = some existing ∧ event = updatedEvent existing task) := by
  unfold syncTask announceTask
  cases hfound : findTask w.tasks task.id with
  | some existing =>
    dsimp only
    by_cases hstatus : existing.status = mcStatus task.status
    · rw [if_pos hstatus]
      refine ⟨_, Announces.of_start ?_ ?_ (announces_broadcast _ (by nofun) _), by simp, ?_⟩
      · rfl
      · rfl
      · intro event _
        simp [updatedEvent]
    · rw [if_neg hstatus]
      obtain ⟨activity, -, hlogged⟩ := announces_logActivity
        { w with tasks := writeTask companyToProjectId w.tasks task } "task_updated" "task"
        existing.id "conductor" ("Task moved from " ++ existing.status.text ++ " to " ++
          (mcStatus task.status).text ++ " (conductor: " ++ task.status ++ ")")
        (some (.object [("old_status", .string existing.status.text),
          ("new_status", .string (mcStatus task.status).text),
          ("conductor_status", .string task.status)])) CONDUCTOR_WORKSPACE_ID
      refine ⟨_, Announces.of_start ?_ ?_ (hlogged.trans (announces_broadcast _ (by nofun) _)),
        by simp, ?_⟩
      · rfl
      · rfl
      · intro event htells
        have hne : event ≠ ⟨.activityCreated, activity.payload⟩ := by
          rintro rfl
          exact not_tellsStatus_activity htells
        simp [updatedEvent, hne]
  | none =>
    obtain ⟨activity, -, hlogged⟩ := announces_logActivity
      { w with tasks := writeTask companyToProjectId w.tasks task } "task_created" "task"
      w.tasks.nextTaskId "conductor" ("Task created: " ++ task.title)
      (some (.object [("conductor_id", .string task.id), ("company", .string task.company),
        ("model", .string task.model)])) CONDUCTOR_WORKSPACE_ID
    refine ⟨_, Announces.of_start ?_ ?_ hlogged, by simp, ?_⟩
    · rfl
    · rfl
    · intro event htells
      have hne : event ≠ ⟨.activityCreated, activity.payload⟩ := by
        rintro rfl
        exact not_tellsStatus_activity htells
      simp [hne]

/-! ### The loop -/

theorem tells_malformed {db : Db} {entries : List (Entry ConductorTask)} {event : Broadcast} :
    ¬ Tells companyToProjectId db (.malformed :: entries) event := by
  rintro ⟨front, task, back, before, existing, hsplit, hfront, -⟩
  cases front with
  | nil => cases (List.cons.inj hsplit).1
  | cons head front =>
    obtain ⟨rfl, -⟩ := List.cons.inj hsplit
    cases hfront

theorem tells_cons {db : Db} {task : ConductorTask} {entries : List (Entry ConductorTask)}
    {event : Broadcast} : Tells companyToProjectId db (.wellFormed task :: entries) event ↔
      (∃ existing, findTask db task.id = some existing ∧ event = updatedEvent existing task) ∨
        Tells companyToProjectId (writeTask companyToProjectId db task) entries event := by
  constructor
  · rintro ⟨front, task', back, before, existing, hsplit, hfront, hfound, hevent⟩
    cases front with
    | nil =>
      obtain ⟨hhead, -⟩ := List.cons.inj hsplit
      obtain rfl := Entry.wellFormed.inj hhead
      obtain rfl := Option.some.inj hfront
      exact .inl ⟨existing, hfound, hevent⟩
    | cons head front =>
      obtain ⟨rfl, htail⟩ := List.cons.inj hsplit
      exact .inr ⟨front, task', back, before, existing, htail, hfront, hfound, hevent⟩
  · rintro (⟨existing, hfound, hevent⟩ | ⟨front, task', back, before, existing, rfl, hrest⟩)
    · exact ⟨[], task, entries, db, existing, rfl, rfl, hfound, hevent⟩
    · exact ⟨.wellFormed task :: front, task', back, before, existing, rfl, hrest⟩

variable (companyToProjectId) in
/-- What the loop announces, up to the entry that throws. -/
theorem syncEntries_announces (entries : List (Entry ConductorTask)) (w : World)
    (stats : SyncStats) :
    ∃ events, Announces w (syncEntries companyToProjectId w stats entries).1 events ∧
      (events = [] ↔ ∀ task, entries.head? ≠ some (.wellFormed task)) ∧
      ∀ event, TellsStatus event →
        (event ∈ events ↔ Tells companyToProjectId w.tasks entries event) := by
  induction entries generalizing w stats with
  | nil =>
    refine ⟨[], .refl w, by simp, ?_⟩
    intro event _
    simp [Tells]
  | cons entry entries ih =>
    cases entry with
    | malformed =>
      refine ⟨[], .refl w, by simp, ?_⟩
      intro event _
      simp [tells_malformed]
    | wellFormed task =>
      obtain ⟨first, hfirst, hne, htells⟩ :=
        syncTask_announces companyToProjectId w task
      obtain ⟨rest, hrest, -, htells'⟩ :=
        ih (syncTask companyToProjectId w task) (stats.count w.tasks task)
      refine ⟨first ++ rest, hfirst.trans hrest, by simp [hne], ?_⟩
      intro event hevent
      rw [List.mem_append, htells event hevent, htells' event hevent, tasks_syncTask, tells_cons]

end

/-! ### What the loop tells, and the rows that it leaves -/

section

variable {companyToProjectId : List (String × Nat)} {db db' : Db}
  {entries : List (Entry ConductorTask)}

theorem writeTasks_append (front back : List (Entry ConductorTask)) (db : Db) :
    writeTasks companyToProjectId db (front ++ back) =
      (writeTasks companyToProjectId db front).bind fun before =>
        writeTasks companyToProjectId before back := by
  induction front generalizing db with
  | nil => rfl
  | cons entry front ih =>
    cases entry with
    | malformed => rfl
    | wellFormed task => exact ih (writeTask companyToProjectId db task)

/-- The loop throws where an entry is malformed. -/
theorem writeTasks_eq_none_iff (entries : List (Entry ConductorTask)) (db : Db) :
    writeTasks companyToProjectId db entries = none ↔ Entry.malformed ∈ entries := by
  induction entries generalizing db with
  | nil => simp [writeTasks]
  | cons entry entries ih =>
    cases entry with
    | malformed => simp [writeTasks]
    | wellFormed task => simp [writeTasks, ih]

/-- The status of a row stays through entries that agree on it. -/
theorem status_writeTasks (h : Keyed Task.id db.tasks db.nextTaskId) {x : String} {t : Task}
    (hfound : findTask db x = some t)
    (hagree : ∀ task, Entry.wellFormed task ∈ entries → task.id = x → mcStatus task.status = t.status)
    (hwritten : writeTasks companyToProjectId db entries = some db') :
    ∃ t', findTask db' x = some t' ∧ t'.id = t.id ∧ t'.status = t.status := by
  induction entries generalizing db t with
  | nil =>
    obtain rfl := Option.some.inj hwritten
    exact ⟨t, hfound, rfl, rfl⟩
  | cons entry entries ih =>
    cases entry with
    | malformed => cases hwritten
    | wellFormed task =>
      have hrest : ∀ other, Entry.wellFormed other ∈ entries → other.id = x →
          mcStatus other.status = t.status :=
        fun other hother => hagree other (List.mem_cons_of_mem _ hother)
      by_cases hx : x = task.id
      · subst hx
        obtain ⟨t₁, hfound₁, hstatus, hid⟩ := findTask_writeTask_self
          companyToProjectId task h
        have hsame : t₁.status = t.status := hstatus.trans (hagree task List.mem_cons_self rfl)
        obtain ⟨t', hfound', hid', hstatus'⟩ := ih (keyed_writeTask h) hfound₁ (by
          rw [hsame]
          exact hrest) hwritten
        exact ⟨t', hfound', hid'.trans (hid t hfound), hstatus'.trans hsame⟩
      · exact ih (keyed_writeTask h) ((findTask_writeTask_other h hx).trans hfound) hrest hwritten

theorem status_text_inj {a b : TaskStatus} (h : a.text = b.text) : a = b := by
  revert h
  cases a <;> cases b <;> decide

/-- An event is true if the row that it names has the status of its entry. -/
theorem trueOf_updatedEvent (h : Keyed Task.id db.tasks db.nextTaskId) {existing t : Task}
    {task : ConductorTask} (ht : t ∈ db.tasks) (hid : t.id = existing.id)
    (hworkspace : t.workspaceId = CONDUCTOR_WORKSPACE_ID) :
    TrueOf db CONDUCTOR_WORKSPACE_ID (updatedEvent existing task) ↔
      t.status = mcStatus task.status := by
  constructor
  · rintro ⟨t', ht', -, fields, hdata, htold, hstatus⟩
    obtain rfl := Json.object.inj hdata
    have hnumber : natural existing.id = natural t'.id := by simpa [lookup] using htold
    have htext : (mcStatus task.status).text = t'.status.text := by simpa [lookup] using hstatus
    have hsame : existing.id = t'.id := by simpa [natural] using hnumber
    obtain rfl := h.eq_of_key ht ht' (hid.trans hsame)
    exact (status_text_inj htext).symm
  · intro hstatus
    refine ⟨t, ht, hworkspace, _, rfl, ?_, ?_⟩
    · rw [hid]
      rfl
    · rw [hstatus]
      rfl

/-- The events of the rows are true of what the loop leaves exactly if the entries agree. -/
theorem tells_true_iff (h : Keyed Task.id db.tasks db.nextTaskId)
    (hwritten : writeTasks companyToProjectId db entries = some db') :
    (∀ event, Tells companyToProjectId db entries event →
      TrueOf db' CONDUCTOR_WORKSPACE_ID event) ↔ Agree db entries := by
  have hkeyed := keyed_writeTasks h hwritten
  constructor
  · rintro htrue front task mid task' back rfl hid hfound
    -- the rows at the two entries
    rw [writeTasks_append] at hwritten
    obtain ⟨before, hfront, hrest⟩ := Option.bind_eq_some_iff.mp hwritten
    have hkeyed₁ := keyed_writeTasks h hfront
    change writeTasks companyToProjectId (writeTask companyToProjectId before task)
      (mid ++ Entry.wellFormed task' :: back) = some db' at hrest
    rw [writeTasks_append] at hrest
    obtain ⟨between, hmid, hback⟩ := Option.bind_eq_some_iff.mp hrest
    have hkeyed₂ := keyed_writeTasks (keyed_writeTask hkeyed₁) hmid
    have hexisting : (findTask before task.id).isSome = true := by
      rcases hfound with hstart | hearlier
      · obtain ⟨t, ht⟩ := Option.isSome_iff_exists.mp hstart
        obtain ⟨t', -, ht'⟩ := (findTask_writeTasks h hfront).1 _ t ht
        rw [ht']
        rfl
      · obtain ⟨entry, hentry, hearlier⟩ := List.mem_filterMap.mp hearlier
        cases entry with
        | malformed => cases hearlier
        | wellFormed earlier =>
          have hsame : earlier.id = task.id := Option.some.inj hearlier
          rw [← hsame]
          exact (findTask_writeTasks h hfront).2 earlier hentry
    obtain ⟨existing, hexisting⟩ := Option.isSome_iff_exists.mp hexisting
    obtain ⟨t₁, ht₁, -, hid₁⟩ := findTask_writeTask_self
      companyToProjectId task hkeyed₁
    obtain ⟨t₂, hid₂, ht₂⟩ := (findTask_writeTasks (keyed_writeTask hkeyed₁) hmid).1 _ t₁ ht₁
    obtain ⟨t₃, ht₃, -, hid₃⟩ := findTask_writeTask_self
      companyToProjectId task' hkeyed₂
    obtain ⟨t, hid₄, ht⟩ := (findTask_writeTasks (keyed_writeTask hkeyed₂) hback).1 _ t₃ ht₃
    -- both events name the row that is there in the end
    have hrow : t.id = t₂.id := hid₄.trans (hid₃ t₂ (by rw [hid]; exact ht₂))
    have hrow' : t.id = existing.id := hrow.trans (hid₂.trans (hid₁ existing hexisting))
    obtain ⟨hmem, hworkspace, -⟩ := findTask_spec ht
    have hfirst := htrue _ ⟨front, task, _, before, existing, rfl, hfront, hexisting, rfl⟩
    have hsecond := htrue _ ⟨front ++ Entry.wellFormed task :: mid, task', back, between, t₂,
      by simp, by
        rw [writeTasks_append, hfront]
        exact hmid, by rw [hid]; exact ht₂, rfl⟩
    rw [trueOf_updatedEvent hkeyed hmem hrow' hworkspace] at hfirst
    rw [trueOf_updatedEvent hkeyed hmem hrow hworkspace] at hsecond
    exact hfirst.symm.trans hsecond
  · rintro hagree event ⟨front, task, back, before, existing, rfl, hfront, hexisting, rfl⟩
    rw [writeTasks_append, hfront] at hwritten
    have hkeyed₁ := keyed_writeTasks h hfront
    obtain ⟨t₁, ht₁, hstatus₁, hid₁⟩ := findTask_writeTask_self
      companyToProjectId task hkeyed₁
    have hfound : (findTask db task.id).isSome = true ∨ task.id ∈ entryIds front := by
      by_contra hnone
      rw [not_or] at hnone
      have hsame := filter_writeTasks_other h hnone.2 hfront
      have hsome : (findTask before task.id).isSome = true := by rw [hexisting]; rfl
      rw [findTask_eq, hsame, ← findTask_eq] at hsome
      exact hnone.1 hsome
    obtain ⟨t, ht, hid, hstatus⟩ := status_writeTasks (keyed_writeTask hkeyed₁) ht₁ (by
      intro task' hmem hid
      obtain ⟨mid, back', rfl⟩ := List.append_of_mem hmem
      rw [hstatus₁]
      exact (hagree front task mid task' back' rfl hid hfound).symm) hwritten
    obtain ⟨hmem, hworkspace, -⟩ := findTask_spec ht
    rw [trueOf_updatedEvent hkeyed hmem (hid.trans (hid₁ existing hexisting)) hworkspace]
    exact hstatus.trans hstatus₁

end

/-! ### Agents -/

theorem syncAgent_announces {companies : List (String × Entry ConductorCompany)} {w w' : World}
    {task : ConductorTask} (h : syncAgent companies w task = some w') :
    ∃ events, Announces w w' events ∧ ∀ event ∈ events, ¬ TellsStatus event := by
  unfold syncAgent at h
  split at h
  · obtain rfl := Option.some.inj h
    exact ⟨[], .refl w, by simp⟩
  · dsimp only at h
    generalize (if task.checks.tmuxAlive = true then "busy" else "offline") = status at h
    split at h
    · split at h
      · obtain rfl := Option.some.inj h
        exact ⟨[], .silent rfl rfl, by simp⟩
      · obtain rfl := Option.some.inj h
        obtain ⟨activity, -, hlogged⟩ := announces_logActivity (w.updateAgents
          CONDUCTOR_WORKSPACE_ID task.tmuxSession _) "agent_status_change" "agent" _ "conductor" _ _
          CONDUCTOR_WORKSPACE_ID
        refine ⟨_, Announces.of_start ?_ ?_ (hlogged.trans (announces_broadcast _ (by nofun) _)), ?_⟩
        · rfl
        · rfl
        · simp [TellsStatus]
    · split at h
      · obtain rfl := Option.some.inj h
        obtain ⟨activity, -, hlogged⟩ := announces_logActivity
          { w with agents := _, nextAgentId := _ } "agent_status_change" "agent" _ "conductor" _ _
          CONDUCTOR_WORKSPACE_ID
        refine ⟨_, Announces.of_start ?_ ?_ hlogged, ?_⟩
        · rfl
        · rfl
        · simp [TellsStatus]
      · cases h

theorem syncConductorAgents_announces (companies : List (String × Entry ConductorCompany))
    (w : World) (entries : List (Entry ConductorTask)) :
    ∃ events, Announces w (syncConductorAgents companies w entries).1 events ∧
      ∀ event ∈ events, ¬ TellsStatus event := by
  induction entries generalizing w with
  | nil => exact ⟨[], .refl w, by simp⟩
  | cons entry entries ih =>
    cases entry with
    | malformed => exact ⟨[], .refl w, by simp⟩
    | wellFormed task =>
      unfold syncConductorAgents
      split
      · exact ⟨[], .refl w, by simp⟩
      · rename_i next hnext
        obtain ⟨first, hfirst, hquiet⟩ := syncAgent_announces hnext
        obtain ⟨rest, hrest, hquiet'⟩ := ih next
        refine ⟨first ++ rest, hfirst.trans hrest, ?_⟩
        intro event hevent
        rcases List.mem_append.mp hevent with hevent | hevent
        · exact hquiet event hevent
        · exact hquiet' event hevent

end MissionControl.Conductor.SyncEvents
