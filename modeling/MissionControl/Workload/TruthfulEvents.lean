import MissionControl.Conductor.SyncEvents
import MissionControl.Workload.BulkEvents
import MissionControl.Workload.RouteEvents

/-!
Whether the events on the bus are true. The events of a creation, of the update of one task and of a
review always are; a bulk update and a synchronization with the Conductor can announce what they
take back, and statuses that no row has.
-/

set_option autoImplicit false
set_option relaxedAutoImplicit false

namespace MissionControl.Workload.TruthfulEvents

open MissionControl.Foundations.Lists
open MissionControl.Foundations.Schema (Json lookup)
open MissionControl.Foundations.Transition (Machine)
open MissionControl.Tasks.Validation
open MissionControl.Tasks.Database
open MissionControl.Tasks.Routes (bulkItems insertTask)
open MissionControl.Tasks.RouteSteps (Request serve)
open MissionControl.Events.Bus
open MissionControl.Events.Stores
open MissionControl.Events.Producers
open MissionControl.Events.Announcements
open MissionControl.Conductor.Files
open MissionControl.Conductor.Sync
open MissionControl.Conductor.Rows
open MissionControl.Conductor.SyncEvents
open GitHubImport Operations BulkEvents RouteEvents

/-- Every event is true of the tables that are left, and there is none if all is taken back. -/
structure Truthful (w w' : World) (workspaceId : Nat) (rolledBack : Prop) : Prop where
  status : ∀ events, Grows w w' events → ∀ event ∈ events, TellsStatus event →
    TrueOf w'.tasks workspaceId event
  logged : ∀ events, Grows w w' events → ∀ event ∈ events, Logged w' event
  silent : rolledBack → ∀ events, Grows w w' events → events = []

/-- The workspace of whoever asks for the operation. -/
def callerWorkspace : Operation → Nat
  | .request _ workspaceId _ _ => workspaceId
  | .importIssues params _ => params.workspaceId
  | _ => CONDUCTOR_WORKSPACE_ID

/-- The run gets to its transaction. -/
def Begins (draws : Draws) (s : State) : Prop :=
  s.disk.directory = true ∧ ¬ (s.disk.hash.isSome ∧ s.disk.hash = s.lastSyncHash) ∧
    (syncCompanies draws (db s) (readCompaniesFile s.disk.companies)).2.isSome = true

/-- The operation takes back what it has written: a request that is answered with an error, and a
synchronization that meets a malformed entry in its transaction. -/
def RollsBack (s : State) : Operation → Prop
  | .request queries workspaceId caller request => ∃ status message,
      (serve (queries.context s.world workspaceId caller) (db s) request).2 = .error status message
  | .syncConductor draws => Begins draws s ∧ Entry.malformed ∈ readActiveTasksFile s.disk.tasks
  | _ => False

/-- A bulk update that announces what is true, and a synchronization whose entries agree, with none
before a malformed one. -/
def TruthfulStep (s : State) : Operation → Prop
  | .request queries workspaceId caller (.putTasks json) => ∀ items, parseBulkUpdate json = .ok items →
      BulkTruthful (queries.context s.world workspaceId caller) (db s) items
  | .syncConductor draws => Begins draws s →
      if Entry.malformed ∈ readActiveTasksFile s.disk.tasks then
        ∀ task, (readActiveTasksFile s.disk.tasks).head? ≠ some (.wellFormed task)
      else Agree (db s) (readActiveTasksFile s.disk.tasks)
  | _ => True

/-! ### What the streams were sent -/

section

variable {w w' : World} {workspaceId : Nat} {rolledBack : Prop} {events : List Broadcast}

theorem truthful_iff (hlistened : w.clients ≠ []) (h : Announces w w' events) :
    Truthful w w' workspaceId rolledBack ↔
      (∀ event ∈ events, TellsStatus event → TrueOf w'.tasks workspaceId event) ∧
        (rolledBack → events = []) := by
  constructor
  · intro htruthful
    exact ⟨htruthful.status events h.clients, fun hback => htruthful.silent hback events h.clients⟩
  · rintro ⟨hstatus, hsilent⟩
    constructor
    · intro others hothers
      rw [Grows.unique hlistened hothers h.clients]
      exact hstatus
    · intro others hothers
      rw [Grows.unique hlistened hothers h.clients]
      exact h.logged
    · intro hback others hothers
      rw [Grows.unique hlistened hothers h.clients]
      exact hsilent hback

/-- An operation that takes back what it has written must not have announced anything. -/
theorem truthful_iff_silent (hlistened : w.clients ≠ []) (h : Grows w w' events)
    (hback : rolledBack) : Truthful w w' workspaceId rolledBack ↔ events = [] := by
  constructor
  · intro htruthful
    exact htruthful.silent hback events h
  · rintro rfl
    constructor
    · intro others hothers
      rw [Grows.unique hlistened hothers h]
      simp
    · intro others hothers
      rw [Grows.unique hlistened hothers h]
      simp
    · intro _ others hothers
      exact Grows.unique hlistened hothers h

end

/-! ### Bulk updates -/

/-- The event of one item after the transaction. -/
def statusEvent (now : Nat) (item : BulkItem) : Broadcast :=
  ⟨.taskStatusChanged, .object
    [("id", natural item.id), ("status", .string item.status.text), ("updated_at", natural now)]⟩

theorem statuses_announces (items : List BulkItem) (workspaceId : Nat) (w : World) :
    ∃ events, Announces w (items.foldl (fun w item => announceEffect .null workspaceId w
        (.broadcast "task.status_changed" item.id (some item.status))) w) events ∧
      events = items.map (statusEvent w.now) := by
  induction items generalizing w with
  | nil => exact ⟨[], .refl w, rfl⟩
  | cons item items ih =>
    have hne : EventType.taskStatusChanged ≠ .activityCreated := by simp
    have hfirst := announces_broadcast w hne (.object [("id", natural item.id),
      ("status", .string item.status.text), ("updated_at", natural w.now)])
    obtain ⟨rest, hrest, rfl⟩ := ih (w.broadcast .taskStatusChanged (.object
      [("id", natural item.id), ("status", .string item.status.text), ("updated_at", natural w.now)]))
    exact ⟨_, hfirst.trans hrest, rfl⟩

theorem trueOf_statusEvent {db : Db} (h : Keyed Task.id db.tasks db.nextTaskId)
    (now : Nat) {workspaceId : Nat} {item : BulkItem} :
    TrueOf db workspaceId (statusEvent now item) ↔
      statusOf db workspaceId item.id = some item.status := by
  constructor
  · rintro ⟨t, ht, hworkspace, fields, hdata, htold, hstatus⟩
    obtain rfl := Json.object.inj hdata
    have hnumber : natural item.id = natural t.id := by simpa [lookup] using htold
    have htext : item.status.text = t.status.text := by simpa [lookup] using hstatus
    have hid : item.id = t.id := by simpa [natural] using hnumber
    rw [status_text_inj htext, statusOf, Db.task?]
    cases hfound : db.tasks.find? fun t => t.id = item.id ∧ t.workspaceId = workspaceId with
    | none =>
      have hnone := List.find?_eq_none.mp hfound t ht
      simp [hid, hworkspace] at hnone
    | some t' =>
      have hspec := List.find?_some hfound
      simp only [decide_eq_true_eq] at hspec
      obtain rfl := h.eq_of_key (List.mem_of_find?_eq_some hfound) ht (hspec.1.trans hid)
      rfl
  · intro hstatus
    obtain ⟨t, hfound, hstatus⟩ := Option.map_eq_some_iff.mp hstatus
    have hspec := List.find?_some hfound
    simp only [decide_eq_true_eq] at hspec
    refine ⟨t, List.mem_of_find?_eq_some hfound, hspec.2, _, rfl, ?_, ?_⟩
    · rw [hspec.1]
      rfl
    · rw [hstatus]
      rfl

section

variable {ctx : Context} {w : World} {items : List BulkItem}

/-- A bulk update whose transaction fails. -/
theorem truthful_failed_iff (hlistened : w.clients ≠ []) (heffects : w.tasks.effects = [])
    {rolledBack : Prop} (hback : rolledBack) {workspaceId : Nat} :
    Truthful w { w with clients := (bulkTransaction ctx w items).clients } workspaceId rolledBack ↔
      ∀ item ∈ items.takeWhile fun item => !fails ctx w.tasks item,
        changes ctx w.tasks item = false := by
  obtain ⟨events, hevents, -, hsilent⟩ := bulkTransaction_announces ctx items heffects
  rw [← hsilent]
  exact truthful_iff_silent hlistened hevents.clients hback

/-- A bulk update whose transaction succeeds. -/
theorem truthful_committed_iff (hlistened : w.clients ≠ []) (heffects : w.tasks.effects = [])
    {db' : Db} (hkeyed : Keyed Task.id db'.tasks db'.nextTaskId)
    (hitems : bulkItems ctx w.tasks items = .ok db') {rolledBack : Prop} (hback : ¬ rolledBack)
    {w' : World} (hw' : w' = items.foldl (fun w item => announceEffect .null ctx.user.workspaceId w
      (.broadcast "task.status_changed" item.id (some item.status))) (bulkTransaction ctx w items))
    (hrows : rows w'.tasks = rows db') :
    Truthful w w' ctx.user.workspaceId rolledBack ↔
      ∀ item ∈ items, (statusOf w.tasks ctx.user.workspaceId item.id).isSome = true ∧
        ∀ other ∈ items, other.id = item.id → other.status = item.status := by
  obtain ⟨first, hfirst, htype, -⟩ := bulkTransaction_announces ctx items heffects
  obtain ⟨rest, hrest, hevents⟩ := statuses_announces items ctx.user.workspaceId
    (bulkTransaction ctx w items)
  subst hw'
  have htrue : ∀ event, TrueOf (items.foldl (fun w item =>
      announceEffect .null ctx.user.workspaceId w
        (.broadcast "task.status_changed" item.id (some item.status)))
          (bulkTransaction ctx w items)).tasks ctx.user.workspaceId event ↔
      TrueOf db' ctx.user.workspaceId event := by
    intro event
    obtain ⟨effects, hsame⟩ := exists_effects hrows.symm
    rw [hsame]
    exact Iff.rfl
  rw [truthful_iff hlistened (hfirst.trans hrest)]
  constructor
  · rintro ⟨hstatus, -⟩ item hitem
    have hone : ∀ item ∈ items, statusOf db' ctx.user.workspaceId item.id = some item.status := by
      intro item hitem
      rw [← trueOf_statusEvent hkeyed (bulkTransaction ctx w items).now, ← htrue]
      refine hstatus _ (List.mem_append_right _ ?_) (.inr rfl)
      rw [hevents]
      exact List.mem_map_of_mem hitem
    constructor
    · rw [← (statusOf_bulkItems hitems item.id).1, hone item hitem]
      rfl
    · intro other hother hid
      have hsame := hone other hother
      rw [hid, hone item hitem] at hsame
      exact (Option.some.inj hsame).symm
  · intro hagree
    refine ⟨?_, fun hcontra => absurd hcontra hback⟩
    intro event hevent htells
    rcases List.mem_append.mp hevent with hevent | hevent
    · have hactivity := htype event hevent
      rcases htells with hcontra | hcontra <;> rw [hactivity] at hcontra <;> cases hcontra
    · rw [hevents] at hevent
      obtain ⟨item, hitem, rfl⟩ := List.mem_map.mp hevent
      obtain ⟨hsome, hsame⟩ := hagree item hitem
      rw [htrue, trueOf_statusEvent hkeyed]
      exact (statusOf_bulkItems hitems item.id).2 item.status hsame hsome
        (.inl ⟨item, hitem, rfl⟩)

end

/-- A bulk update by what its transaction comes to. -/
theorem putTasks_failed {ctx : Context} {w : World} {json : Json} {items : List BulkItem}
    {message : String} (hitems : parseBulkUpdate json = .ok items)
    (hbulk : bulkItems ctx w.tasks items = .error message) :
    (putTasks ctx w json).1 = { w with clients := (bulkTransaction ctx w items).clients } ∧
      (Tasks.Routes.putTasks ctx w.tasks json).2 = .error 403 message := by
  unfold putTasks Tasks.Routes.putTasks
  simp only [hitems, hbulk, and_self]

theorem putTasks_committed {ctx : Context} {w : World} {json : Json} {items : List BulkItem}
    {written : Db} (hitems : parseBulkUpdate json = .ok items)
    (hbulk : bulkItems ctx w.tasks items = .ok written) :
    (putTasks ctx w json).1 = items.foldl (fun w item => announceEffect .null ctx.user.workspaceId w
        (.broadcast "task.status_changed" item.id (some item.status))) (bulkTransaction ctx w items) ∧
      (Tasks.Routes.putTasks ctx w.tasks json).2 = .success items.length ∧
      rows (Tasks.Routes.putTasks ctx w.tasks json).1 = rows written := by
  unfold putTasks Tasks.Routes.putTasks
  simp only [hitems, hbulk, rows_emit, and_self]

theorem bulk_truthful_iff {ctx : Context} {w : World}
    (hkeyed : Keyed Task.id w.tasks.tasks w.tasks.nextTaskId) (heffects : w.tasks.effects = [])
    (hlistened : w.clients ≠ []) (json : Json) :
    Truthful w (putTasks ctx w json).1 ctx.user.workspaceId
        (∃ status message, (serve ctx w.tasks (.putTasks json)).2 = .error status message) ↔
      ∀ items, parseBulkUpdate json = .ok items → BulkTruthful ctx w.tasks items := by
  have hrows := rows_putTasks ctx w json
  have hserved := keyed_serve hkeyed ctx (.putTasks json)
  unfold serve at hserved ⊢
  cases hitems : parseBulkUpdate json with
  | error issues =>
    have hworld : (putTasks ctx w json).1 = w := by
      unfold putTasks
      simp only [hitems]
    have hresponse : (Tasks.Routes.putTasks ctx w.tasks json).2 = .invalid issues := by
      unfold Tasks.Routes.putTasks
      simp only [hitems]
    rw [hworld, truthful_iff hlistened (.refl w)]
    simp
  | ok items =>
    simp only [Except.ok.injEq, forall_eq', BulkTruthful]
    cases hbulk : bulkItems ctx w.tasks items with
    | error message =>
      obtain ⟨hworld, hresponse⟩ := putTasks_failed hitems hbulk
      rw [if_pos ((bulkItems_error_iff items).mp ⟨message, hbulk⟩), hworld]
      exact truthful_failed_iff hlistened heffects ⟨403, message, hresponse⟩
    | ok written =>
      obtain ⟨hworld, hresponse, hwritten⟩ := putTasks_committed hitems hbulk
      have hfails : ¬ items.any (fails ctx w.tasks) = true := by
        intro hfails
        obtain ⟨message, hmessage⟩ := (bulkItems_error_iff items).mpr hfails
        rw [hbulk] at hmessage
        cases hmessage
      obtain ⟨effects, hsame⟩ := exists_effects hwritten
      have hkeyed' : Keyed Task.id written.tasks written.nextTaskId := by
        rw [hsame]
        exact hserved
      rw [if_neg hfails]
      refine truthful_committed_iff hlistened heffects hkeyed' hbulk ?_ hworld
        (hrows.trans hwritten)
      rintro ⟨status, message, herror⟩
      rw [hresponse] at herror
      cases herror

/-! ### Synchronizations -/

/-- Whether entries agree depends on the tasks only. -/
theorem agree_congr {db db' : Db} (h : db'.tasks = db.tasks) (entries : List (Entry ConductorTask)) :
    Agree db' entries ↔ Agree db entries := by
  simp only [Agree, findTask, h]

section

variable {companyToProjectId : List (String × Nat)} {w : World} {entries : List (Entry ConductorTask)}

variable (companyToProjectId w) in
/-- A transaction that meets a malformed entry, with what it has announced before. -/
theorem syncTasks_failed (hmalformed : Entry.malformed ∈ entries) :
    ∃ attempted events, syncTasks w companyToProjectId entries =
        ({ w with clients := attempted.clients }, none) ∧ Grows w attempted events ∧
      (events = [] ↔ ∀ task, entries.head? ≠ some (.wellFormed task)) := by
  obtain ⟨events, hevents, hhead, -⟩ :=
    syncEntries_announces companyToProjectId entries w ⟨0, 0, 0⟩
  obtain ⟨db, stats, hwritten, -⟩ | ⟨-, hnone⟩ :=
    tasks_syncEntries companyToProjectId w ⟨0, 0, 0⟩ entries
  · rw [(writeTasks_eq_none_iff entries w.tasks).mpr hmalformed] at hwritten
    cases hwritten
  · refine ⟨_, events, ?_, hevents.clients, hhead⟩
    unfold syncTasks
    split
    · rename_i synced stats heq
      rw [heq] at hnone
      cases hnone
    · rename_i attempted heq
      rw [heq]

variable (companyToProjectId w) in
theorem syncTasks_committed (hwell : Entry.malformed ∉ entries) :
    ∃ synced stats events, syncTasks w companyToProjectId entries = (synced, some stats) ∧
      writeTasks companyToProjectId w.tasks entries = some synced.tasks ∧ Announces w synced events ∧
      ∀ event, TellsStatus event →
        (event ∈ events ↔ Tells companyToProjectId w.tasks entries event) := by
  obtain ⟨events, hevents, -, htells⟩ :=
    syncEntries_announces companyToProjectId entries w ⟨0, 0, 0⟩
  obtain ⟨db, stats, hwritten, hsome, hdb⟩ | ⟨hnone, -⟩ :=
    tasks_syncEntries companyToProjectId w ⟨0, 0, 0⟩ entries
  · refine ⟨_, stats, events, ?_, ?_, hevents, htells⟩
    · unfold syncTasks
      split
      · rename_i synced stats' heq
        rw [heq] at hsome ⊢
        obtain rfl := Option.some.inj hsome
        rfl
      · rename_i attempted heq
        rw [heq] at hsome
        cases hsome
    · rw [hdb]
      exact hwritten
  · exact absurd ((writeTasks_eq_none_iff entries w.tasks).mp hnone) hwell

end

theorem tells_tellsStatus {companyToProjectId : List (String × Nat)} {db : Db}
    {entries : List (Entry ConductorTask)} {event : Broadcast}
    (h : Tells companyToProjectId db entries event) : TellsStatus event := by
  obtain ⟨front, task, back, before, existing, -, -, -, rfl⟩ := h
  exact .inl rfl

theorem sync_truthful_iff {s : State} (hkeyed : Keyed Task.id (db s).tasks (db s).nextTaskId)
    (hlistened : s.world.clients ≠ []) (draws : Draws) :
    Truthful s.world (perform s (.syncConductor draws)).world CONDUCTOR_WORKSPACE_ID
        (RollsBack s (.syncConductor draws)) ↔ TruthfulStep s (.syncConductor draws) := by
  have hidle : ∀ {w : World}, ¬ Begins draws s → w.clients = s.world.clients →
      w.activities = s.world.activities → (Truthful s.world w CONDUCTOR_WORKSPACE_ID
        (RollsBack s (.syncConductor draws)) ↔ TruthfulStep s (.syncConductor draws)) := by
    intro w hbegins hclients hactivities
    rw [truthful_iff hlistened (.silent hclients hactivities)]
    simp [TruthfulStep, hbegins]
  by_cases hdirectory : s.disk.directory = true
  · by_cases hchanged : s.disk.hash.isSome ∧ s.disk.hash = s.lastSyncHash
    · have hworld : (perform s (.syncConductor draws)).world = s.world := by
        simp only [perform, syncConductorData, hdirectory, not_true_eq_false, if_false, if_pos hchanged]
      rw [hworld]
      exact hidle (fun hbegins => hbegins.2.1 hchanged) rfl rfl
    · have hworld : (perform s (.syncConductor draws)).world = (syncFiles draws s.world s.disk).1 := by
        simp only [perform, syncConductorData, hdirectory, not_true_eq_false, if_false,
          if_neg hchanged]
        split <;> rename_i heq <;> rw [heq]
      rw [hworld]
      have htasks := tasks_syncCompanies draws (db s) (readCompaniesFile s.disk.companies)
      unfold syncFiles
      dsimp only
      split
      · rename_i start heq
        refine hidle (fun hbegins => ?_) rfl rfl
        have hsome := hbegins.2.2
        rw [db, heq] at hsome
        cases hsome
      · rename_i start companyToProjectId heq
        have hbegins : Begins draws s := ⟨hdirectory, hchanged, by rw [db, heq]; rfl⟩
        rw [db, heq] at htasks
        have hstart : Keyed Task.id start.tasks start.nextTaskId := by
          rw [htasks.1, htasks.2]
          exact hkeyed
        have hagree : Agree start (readActiveTasksFile s.disk.tasks) ↔
            Agree (db s) (readActiveTasksFile s.disk.tasks) := agree_congr htasks.1 _
        simp only [TruthfulStep, RollsBack, hbegins, true_imp_iff, true_and, ← hagree]
        generalize readActiveTasksFile s.disk.tasks = entries
        by_cases hmalformed : Entry.malformed ∈ entries
        · obtain ⟨attempted, events, hsynced, hgrows, hhead⟩ := syncTasks_failed
            companyToProjectId { s.world with tasks := start } hmalformed
          rw [if_pos hmalformed, hsynced, ← hhead]
          exact truthful_iff_silent hlistened hgrows hmalformed
        · obtain ⟨synced, stats, events, hsynced, hwritten, hevents, htells⟩ := syncTasks_committed
            companyToProjectId { s.world with tasks := start } hmalformed
          obtain ⟨rest, hrest, hquiet⟩ := syncConductorAgents_announces
            (readCompaniesFile s.disk.companies) synced entries
          have hleft := tasks_syncConductorAgents (readCompaniesFile s.disk.companies) synced entries
          rw [if_neg hmalformed, hsynced, ← tells_true_iff hstart hwritten, ← hleft]
          dsimp only
          have hall : Announces s.world
              (syncConductorAgents (readCompaniesFile s.disk.companies) synced entries).1
              (events ++ rest) := by
            refine Announces.of_start ?_ ?_ (hevents.trans hrest)
            · rfl
            · rfl
          have htrue : (∀ event ∈ events ++ rest, TellsStatus event → TrueOf
              (syncConductorAgents (readCompaniesFile s.disk.companies) synced entries).1.tasks
                CONDUCTOR_WORKSPACE_ID event) ↔
              ∀ event, Tells companyToProjectId start entries event → TrueOf
                (syncConductorAgents (readCompaniesFile s.disk.companies) synced entries).1.tasks
                  CONDUCTOR_WORKSPACE_ID event := by
            constructor
            · intro h event htold
              have htells' := tells_tellsStatus htold
              exact h event (List.mem_append_left _ ((htells event htells').mpr htold)) htells'
            · intro h event hevent htells'
              rcases List.mem_append.mp hevent with hevent | hevent
              · exact h event ((htells event htells').mp hevent)
              · exact absurd htells' (hquiet event hevent)
          rw [← htrue]
          generalize syncConductorAgents (readCompaniesFile s.disk.companies) synced entries =
            result at hall
          obtain ⟨final, ended⟩ := result
          cases ended <;> simp [truthful_iff hlistened hall, hmalformed]
  · have hworld : (perform s (.syncConductor draws)).world = s.world := by
      simp only [perform, syncConductorData, if_pos hdirectory]
    rw [hworld]
    exact hidle (fun hbegins => hdirectory hbegins.1) rfl rfl

/-! ### Imports and archives -/

/-- The change announces no status. -/
def TellsNothing (w w' : World) : Prop :=
  ∃ events, Announces w w' events ∧ ∀ event ∈ events, ¬ TellsStatus event

theorem TellsNothing.trans {w w' w'' : World} (h : TellsNothing w w') (h' : TellsNothing w' w'') :
    TellsNothing w w'' := by
  obtain ⟨events, hevents, hquiet⟩ := h
  obtain ⟨events', hevents', hquiet'⟩ := h'
  refine ⟨_, hevents.trans hevents', ?_⟩
  intro event hevent
  rcases List.mem_append.mp hevent with hevent | hevent
  · exact hquiet event hevent
  · exact hquiet' event hevent

theorem tellsNothing_foldl {α : Type} {step : World → α → World}
    (hstep : ∀ w a, TellsNothing w (step w a)) (w : World) (l : List α) :
    TellsNothing w (l.foldl step w) := by
  induction l generalizing w with
  | nil => exact ⟨[], .refl w, by simp⟩
  | cons a l ih => exact (hstep w a).trans (ih (step w a))

theorem importIssue_tellsNothing (params : Import) (w : World) (issue : GitHubIssue) :
    TellsNothing w (importIssue params w issue) := by
  unfold importIssue
  split
  · exact ⟨[], .refl w, by simp⟩
  · dsimp only
    generalize GitHubImport.newTask w.tasks.nextTaskId w.now params issue = task
    obtain ⟨activity, -, hlogged⟩ := announces_logActivity
      { w with tasks := insertTask w.tasks task } "task_created" "task" task.id params.actor
      ("Imported from GitHub: " ++ params.repo ++ "#" ++ toString issue.number)
      (some (.object [("github_issue", natural issue.number),
        ("github_repo", .string params.repo)])) params.workspaceId
    refine ⟨_, Announces.of_start ?_ ?_ (hlogged.trans (announces_broadcast _ ?_ _)), ?_⟩
    · rfl
    · rfl
    · simp
    · simp [TellsStatus]

theorem handleSync_tellsNothing (params : Import) (w : World) (issues : List GitHubIssue) :
    TellsNothing w (handleSync params w issues) := by
  refine (tellsNothing_foldl (importIssue_tellsNothing params) w issues).trans ?_
  exact ⟨_, announces_broadcast _ (by simp) _, by simp [TellsStatus]⟩

theorem announceArchived_tellsNothing (w : World) (db : Db) (task : CompletedTask) :
    TellsNothing w (announceArchived w db task) := by
  unfold announceArchived
  split
  · exact ⟨[], .refl w, by simp⟩
  · rename_i existing _
    split
    · exact ⟨[], .refl w, by simp⟩
    · obtain ⟨activity, -, hlogged⟩ := announces_logActivity w "task_updated" "task" existing.id
        "conductor" ("Task completed via archive (" ++ task.status ++ ")")
        (some (.object [("conductor_status", .string task.status),
          ("outcome", .string task.outcome.text)])) CONDUCTOR_WORKSPACE_ID
      exact ⟨_, hlogged, by simp [TellsStatus]⟩

theorem syncCompletedTasks_tellsNothing (w : World) (files : List (Contents CompletedTask)) :
    TellsNothing w (syncCompletedTasks w files) := by
  refine tellsNothing_foldl (fun w file => ?_) w files
  cases file with
  | unreadable => exact ⟨[], .refl w, by simp⟩
  | unparsable => exact ⟨[], .refl w, by simp⟩
  | parsed task =>
    obtain ⟨events, hevents, hquiet⟩ := announceArchived_tellsNothing
      { w with tasks := archiveTask w.tasks w.rooms.tables.now task } w.tasks task
    refine ⟨events, Announces.of_start ?_ ?_ hevents, hquiet⟩
    · rfl
    · rfl

theorem truthful_of_tellsNothing {w w' : World} {workspaceId : Nat} (hlistened : w.clients ≠ [])
    (h : TellsNothing w w') : Truthful w w' workspaceId False := by
  obtain ⟨events, hevents, hquiet⟩ := h
  rw [truthful_iff hlistened hevents]
  exact ⟨fun event hevent htells => absurd htells (hquiet event hevent), False.elim⟩

/-! ### Requests for one task -/

theorem request_truthful (queries : TaskQueries) {s : State} (workspaceId : Nat) (caller : Caller)
    {request : Request} (heffects : (db s).effects = []) (hlistened : s.world.clients ≠ [])
    (hrequest : ∀ json, request ≠ .putTasks json) :
    Truthful s.world (perform s (.request queries workspaceId caller request)).world workspaceId
      (RollsBack s (.request queries workspaceId caller request)) := by
  simp only [perform, RollsBack]
  obtain ⟨events, hevents, htrue⟩ := serveTask_announces queries s.world workspaceId caller heffects
    hrequest
  rw [truthful_iff hlistened hevents]
  refine ⟨htrue, ?_⟩
  rintro ⟨status, message, herror⟩
  have hnone := (effects_of_error hrequest herror).trans heffects
  have hclients : (serveTask queries s.world workspaceId caller request).1.clients =
      s.world.clients := by
    rw [serveTask_fst queries s.world workspaceId caller hrequest]
    rw [db] at hnone
    unfold settle
    rw [hnone]
    rfl
  refine Grows.unique hlistened hevents.clients ?_
  simp [Grows, hclients]

/-! ### Between the requests -/

theorem effects_bulkTransaction {ctx : Context} {w : World} (h : w.tasks.effects = [])
    (items : List BulkItem) : (bulkTransaction ctx w items).tasks.effects = [] := by
  induction items generalizing w with
  | nil => exact h
  | cons item items ih =>
    unfold bulkTransaction
    split
    · exact h
    · refine ih ?_
      rw [tasks_settle]
      rfl

theorem effects_putTasks {ctx : Context} {w : World} (h : w.tasks.effects = []) (json : Json) :
    (putTasks ctx w json).1.tasks.effects = [] := by
  unfold putTasks
  cases hitems : parseBulkUpdate json with
  | error issues => exact h
  | ok items =>
    dsimp only
    split
    · have hannounced := tasks_announceEffects .null ctx.user.workspaceId
        (bulkTransaction ctx w items) (items.map fun item =>
          .broadcast "task.status_changed" item.id (some item.status))
      rw [List.foldl_map] at hannounced
      rw [hannounced]
      exact effects_bulkTransaction h items
    · exact h

theorem effects_writeTasks {companyToProjectId : List (String × Nat)} {db db' : Db}
    {entries : List (Entry ConductorTask)}
    (h : writeTasks companyToProjectId db entries = some db') : db'.effects = db.effects := by
  induction entries generalizing db with
  | nil =>
    obtain rfl := Option.some.inj h
    rfl
  | cons entry entries ih =>
    cases entry with
    | malformed => cases h
    | wellFormed task =>
      refine (ih h).trans ?_
      unfold writeTask
      split <;> rfl

/-- Everything that is to be announced has been announced when an operation is over. -/
theorem effects_perform {s : State} (h : (db s).effects = []) (op : Operation) :
    (db (perform s op)).effects = [] := by
  cases op with
  | wait milliseconds => exact h
  | files disk => exact h
  | importIssues params issues =>
    rw [db_importIssues]
    refine foldl_keeps (P := fun db => db.effects = []) (fun db issue hdb => ?_) h issues
    unfold writeIssue
    split
    · exact hdb
    · exact hdb
  | syncCompleted files =>
    rw [db_syncCompleted]
    refine foldl_keeps (P := fun db => db.effects = []) (fun db file hdb => ?_) h files
    cases file with
    | unreadable => exact hdb
    | unparsable => exact hdb
    | parsed task =>
      simp only [archiveFile, archiveTask]
      split
      · exact hdb
      · split
        · exact hdb
        · exact hdb
  | syncConductor draws =>
    obtain ⟨projects, nextProjectId, hprojects⟩ :=
      syncCompanies_projects draws (db s) (readCompaniesFile s.disk.companies)
    obtain hkept | hkept | ⟨companyToProjectId, start, hcommits, hwritten⟩ :=
      db_syncConductor s draws
    · rw [hkept]
      exact h
    · rw [hkept, hprojects]
      exact h
    · rw [hcommits.companies] at hprojects
      rw [effects_writeTasks hwritten]
      exact (congrArg Db.effects hprojects).trans h
  | request queries workspaceId caller request =>
    cases request with
    | putTasks json => exact effects_putTasks h json
    | postTask json | putTask taskId json | pollQueue agentParam agentHeader maxCapacityParam
      | postReview json | nimbusTask params =>
      simp only [db, perform]
      rw [serveTask_fst queries s.world workspaceId caller (by rintro _ ⟨⟩), tasks_settle]
      rfl

/-- What an operation puts on the bus is true, and nothing where it takes everything back, exactly
in the operations that are told apart here. -/
theorem truthful_perform_iff {s : State} (op : Operation)
    (hkeyed : Keyed Task.id (db s).tasks (db s).nextTaskId) (heffects : (db s).effects = [])
    (hlistened : s.world.clients ≠ []) :
    Truthful s.world (perform s op).world (callerWorkspace op) (RollsBack s op) ↔
      TruthfulStep s op := by
  cases op with
  | wait milliseconds =>
    exact iff_of_true (truthful_of_tellsNothing hlistened ⟨[], .silent rfl rfl, by simp⟩) trivial
  | files disk =>
    exact iff_of_true (truthful_of_tellsNothing hlistened ⟨[], .refl _, by simp⟩) trivial
  | importIssues params issues =>
    exact iff_of_true
      (truthful_of_tellsNothing hlistened (handleSync_tellsNothing params _ issues)) trivial
  | syncCompleted files =>
    exact iff_of_true
      (truthful_of_tellsNothing hlistened (syncCompletedTasks_tellsNothing _ files)) trivial
  | syncConductor draws => exact sync_truthful_iff hkeyed hlistened draws
  | request queries workspaceId caller request =>
    cases request with
    | putTasks json => exact bulk_truthful_iff hkeyed heffects hlistened json
    | postTask json | putTask taskId json | pollQueue agentParam agentHeader maxCapacityParam
      | postReview json | nimbusTask params =>
      exact iff_of_true
        (request_truthful queries workspaceId caller heffects hlistened (by nofun)) trivial

def listeningState : State :=
  { sampleState with world := { sampleState.world with clients := [⟨1, 1, []⟩] } }

/-- `PUT /api/tasks` with these ids and statuses. -/
def bulkUpdate (items : List (Nat × String)) : Operation :=
  sampleOperation (.putTasks (.object [("tasks", .array (items.map fun item =>
    .object [("id", natural item.1), ("status", .string item.2)]))]))

theorem grows_iff {w w' : World} {events : List Broadcast} : Grows w w' events ↔
    w'.clients.map (fun client => (client.id, client.workspaceId, client.received)) =
      w.clients.map fun client => (client.id, client.workspaceId, client.received ++ events) := by
  constructor
  · intro h
    rw [h, List.map_map]
    rfl
  · intro h
    have hinjective : Function.Injective fun client : Client =>
        (client.id, client.workspaceId, client.received) := by
      rintro ⟨id, workspaceId, received⟩ ⟨id', workspaceId', received'⟩ hsame
      simpa using hsame
    apply hinjective.list_map
    rw [h, List.map_map]
    rfl

end MissionControl.Workload.TruthfulEvents
