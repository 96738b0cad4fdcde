import MissionControl.Events.Producers

/-!
What a change of the world announces: the events that every stream was sent on top of those from
before, where each event of an activity is about a row that was written. An event about a task is
true of the tables when it names a row of the workspace that has the status it tells.
-/

set_option autoImplicit false
set_option relaxedAutoImplicit false

namespace MissionControl.Events.Announcements

open MissionControl.Foundations.Schema (Json lookup)
open MissionControl.Tasks.Validation
open MissionControl.Tasks.Database
open Bus Stores Producers

/-- Every stream was sent these events. -/
def Grows (w w' : World) (events : List Broadcast) : Prop :=
  w'.clients = w.clients.map fun client => { client with received := client.received ++ events }

/-- The event tells the status of a task. -/
def TellsStatus (event : Broadcast) : Prop :=
  event.type = .taskUpdated ∨ event.type = .taskStatusChanged

/-- The event names a task of the workspace, and the status that it has. -/
def TrueOf (db : Db) (workspaceId : Nat) (event : Broadcast) : Prop :=
  ∃ t ∈ db.tasks, t.workspaceId = workspaceId ∧ ∃ fields, event.data = .object fields ∧
    lookup fields "id" = some (natural t.id) ∧ lookup fields "status" = some (.string t.status.text)

/-- The event of an activity is about a row of the table. -/
def Logged (w : World) (event : Broadcast) : Prop :=
  event.type = .activityCreated → ∃ activity ∈ w.activities, event.data = activity.payload

/-- A change of the world with what it announces. -/
structure Announces (w w' : World) (events : List Broadcast) : Prop where
  clients : Grows w w' events
  activities : ∀ activity ∈ w.activities, activity ∈ w'.activities
  logged : ∀ event ∈ events, Logged w' event

/-! ### Composition -/

section

variable {w w' w'' : World} {events events' : List Broadcast}

/-- A stream knows which events it was sent. -/
theorem Grows.unique (h : w.clients ≠ []) (hgrows : Grows w w' events)
    (hgrows' : Grows w w' events') : events = events' := by
  obtain ⟨client, rest, hclients⟩ := List.exists_cons_of_ne_nil h
  unfold Grows at hgrows hgrows'
  rw [hclients, hgrows, hclients] at hgrows'
  simpa using congrArg Client.received (List.cons.inj hgrows').1

theorem Grows.trans (h : Grows w w' events) (h' : Grows w' w'' events') :
    Grows w w'' (events ++ events') := by
  unfold Grows at h h' ⊢
  rw [h', h, List.map_map]
  simp [Function.comp_def, List.append_assoc]

theorem Announces.refl (w : World) : Announces w w [] := by
  refine ⟨?_, fun _ h => h, fun _ h => by cases h⟩
  simp [Grows]

theorem Announces.trans (h : Announces w w' events) (h' : Announces w' w'' events') :
    Announces w w'' (events ++ events') := by
  refine ⟨h.clients.trans h'.clients, fun a ha => h'.activities a (h.activities a ha), ?_⟩
  intro event hevent htype
  rcases List.mem_append.mp hevent with hevent | hevent
  · obtain ⟨activity, hactivity, hdata⟩ := h.logged event hevent htype
    exact ⟨activity, h'.activities activity hactivity, hdata⟩
  · exact h'.logged event hevent htype

/-- What is not announced. -/
theorem Announces.silent (hclients : w'.clients = w.clients) (hactivities : w'.activities = w.activities) :
    Announces w w' [] := by
  refine ⟨?_, fun a ha => hactivities ▸ ha, fun _ h => by cases h⟩
  simp [Grows, hclients]

theorem Announces.of_start (hclients : w.clients = w'.clients)
    (hactivities : w.activities = w'.activities) (h : Announces w' w'' events) :
    Announces w w'' events := by
  refine ⟨?_, fun a ha => h.activities a (hactivities ▸ ha), h.logged⟩
  unfold Grows
  rw [hclients]
  exact h.clients

end

/-! ### The helpers of the database -/

section

variable (w : World)

theorem announces_broadcast {type : EventType} (htype : type ≠ .activityCreated) (data : Json) :
    Announces w (w.broadcast type data) [⟨type, data⟩] := by
  refine ⟨rfl, fun _ h => h, ?_⟩
  intro event hevent hactivity
  obtain rfl := List.mem_singleton.mp hevent
  exact absurd hactivity htype

theorem announces_logActivity (type entityType : String) (entityId : Nat)
    (actor description : String) (data : Option Json) (workspaceId : Nat) :
    ∃ activity : Activity, activity.id = w.nextActivityId ∧
      Announces w (w.logActivity type entityType entityId actor description data workspaceId)
        [⟨.activityCreated, activity.payload⟩] := by
  refine ⟨_, rfl, rfl, fun a ha => List.mem_append_left _ ha, ?_⟩
  intro event hevent _
  obtain rfl := List.mem_singleton.mp hevent
  exact ⟨_, List.mem_append_right _ (List.mem_singleton_self _), rfl⟩

theorem announces_createNotification (recipient type title message : String)
    (sourceType : Option String) (sourceId : Option Nat) (workspaceId : Nat) :
    ∃ data, Announces w
      (w.createNotification recipient type title message sourceType sourceId workspaceId)
      [⟨.notificationCreated, data⟩] := by
  refine ⟨_, rfl, fun a ha => ha, ?_⟩
  intro event hevent htype
  obtain rfl := List.mem_singleton.mp hevent
  cases htype

end

/-- An event of an activity tells no status. -/
theorem not_tellsStatus_activity {data : Json} : ¬ TellsStatus ⟨.activityCreated, data⟩ := by
  rintro (h | h) <;> cases h

theorem not_tellsStatus_notification {data : Json} : ¬ TellsStatus ⟨.notificationCreated, data⟩ := by
  rintro (h | h) <;> cases h

/-! ### The effects of a route -/

/-- A change of status that the route announces by itself has been written. -/
def Written (db : Db) (workspaceId : Nat) : Effect → Prop
  | .broadcast _ taskId (some status) =>
    ∃ t ∈ db.tasks, t.workspaceId = workspaceId ∧ t.id = taskId ∧ t.status = status
  | _ => True

/-- The payload of a row tells the status of the row. -/
theorem trueOf_taskPayload {db : Db} {workspaceId : Nat} {t : Task} (ht : t ∈ db.tasks)
    (hworkspace : t.workspaceId = workspaceId) (type : EventType) :
    TrueOf db workspaceId ⟨type, taskPayload db t⟩ := by
  refine ⟨t, ht, hworkspace, _, rfl, ?_, ?_⟩ <;> simp [lookup, taskColumns]

theorem announceEffect_announces (data : Json) (workspaceId : Nat) (w : World) {effect : Effect}
    (h : Written w.tasks workspaceId effect) :
    ∃ events, Announces w (announceEffect data workspaceId w effect) events ∧
      (announceEffect data workspaceId w effect).tasks = w.tasks ∧
      ∀ event ∈ events, TellsStatus event → TrueOf w.tasks workspaceId event := by
  cases effect with
  | activity workspaceId type taskId actor description =>
    obtain ⟨activity, -, hlogged⟩ :=
      announces_logActivity w type "task" taskId actor description (some data) workspaceId
    refine ⟨_, hlogged, rfl, ?_⟩
    intro event hevent htells
    obtain rfl := List.mem_singleton.mp hevent
    exact absurd htells not_tellsStatus_activity
  | subscription => exact ⟨[], .refl w, rfl, fun _ h => by cases h⟩
  | notification workspaceId recipient type title message taskId =>
    obtain ⟨data, hcreated⟩ := announces_createNotification w recipient type title message
      (some "task") (some taskId) workspaceId
    refine ⟨_, hcreated, rfl, ?_⟩
    intro event hevent htells
    obtain rfl := List.mem_singleton.mp hevent
    exact absurd htells not_tellsStatus_notification
  | broadcast name taskId status =>
    cases status with
    | some status =>
      obtain ⟨t, ht, hworkspace, rfl, rfl⟩ := h
      refine ⟨_, announces_broadcast w (by nofun) _, rfl, ?_⟩
      intro event hevent _
      obtain rfl := List.mem_singleton.mp hevent
      exact ⟨t, ht, hworkspace, _, rfl, rfl, rfl⟩
    | none =>
      simp only [announceEffect]
      cases hrow : w.tasks.task? workspaceId taskId with
      | none => exact ⟨[], .refl w, rfl, fun _ h => by cases h⟩
      | some t =>
        have hfound := List.find?_some hrow
        simp only [decide_eq_true_eq] at hfound
        refine ⟨_, announces_broadcast w ?_ _, rfl, ?_⟩
        · split <;> nofun
        · intro event hevent _
          obtain rfl := List.mem_singleton.mp hevent
          exact trueOf_taskPayload (List.mem_of_find?_eq_some hrow) hfound.2 _

/-- Effects that are carried out one after the other. -/
theorem announceEffects_announces (data : Json) (workspaceId : Nat) (w : World)
    {effects : List Effect} (h : ∀ effect ∈ effects, Written w.tasks workspaceId effect) :
    ∃ events, Announces w (effects.foldl (announceEffect data workspaceId) w) events ∧
      (effects.foldl (announceEffect data workspaceId) w).tasks = w.tasks ∧
      ∀ event ∈ events, TellsStatus event → TrueOf w.tasks workspaceId event := by
  induction effects generalizing w with
  | nil => exact ⟨[], .refl w, rfl, fun _ h => by cases h⟩
  | cons effect effects ih =>
    obtain ⟨first, hfirst, htasks, htrue⟩ :=
      announceEffect_announces data workspaceId w (h effect List.mem_cons_self)
    obtain ⟨rest, hrest, htasks', htrue'⟩ := ih (announceEffect data workspaceId w effect) (by
      rw [htasks]
      exact fun effect heffect => h effect (List.mem_cons_of_mem _ heffect))
    rw [htasks] at htasks' htrue'
    refine ⟨_, hfirst.trans hrest, htasks', ?_⟩
    intro event hevent htells
    rcases List.mem_append.mp hevent with hevent | hevent
    · exact htrue event hevent htells
    · exact htrue' event hevent htells

/-- The tables that a route leaves, with what it has to announce carried out. -/
theorem settle_announces (data : Json) (workspaceId : Nat) (w : World) {db : Db}
    (h : ∀ effect ∈ db.effects, Written db workspaceId effect) :
    ∃ events, Announces w (settle data workspaceId w db) events ∧
      ∀ event ∈ events, TellsStatus event →
        TrueOf (settle data workspaceId w db).tasks workspaceId event := by
  have hwritten : ∀ effect ∈ db.effects, Written { db with effects := [] } workspaceId effect := by
    intro effect heffect
    have heffect := h effect heffect
    cases effect with
    | activity => trivial
    | subscription => trivial
    | notification => trivial
    | broadcast name taskId status =>
      cases status with
      | none => trivial
      | some status => exact heffect
  obtain ⟨events, hevents, htasks, htrue⟩ := announceEffects_announces data workspaceId
    { w with tasks := { db with effects := [] } } hwritten
  unfold settle
  refine ⟨events, Announces.of_start ?_ ?_ hevents, ?_⟩
  · rfl
  · rfl
  · rw [htasks]
    exact htrue

end MissionControl.Events.Announcements
