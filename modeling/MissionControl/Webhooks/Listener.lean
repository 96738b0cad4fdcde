import MissionControl.Events.Bus
import MissionControl.Webhooks.CircuitBreaker

/-!
The listener that turns events of the bus into deliveries. It knows the workspace of an event only
by the `workspace_id` of its payload, and takes an event without one for an event of the first
workspace. The webhooks are looked up after an await, so nothing is said here about when.
-/

set_option autoImplicit false
set_option relaxedAutoImplicit false

namespace MissionControl.Webhooks.Listener

open MissionControl.Foundations.JsText
open MissionControl.Foundations.JsonValues (getField)
open MissionControl.Foundations.Lists (Keyed countP_le_one_of_nodup_map)
open MissionControl.Foundations.Schema (Json)
open MissionControl.Events.Bus
open Deliveries

/-- `EVENT_MAP`. -/
def eventMap : EventType → Option String
  | .activityCreated => some "activity"
  | .notificationCreated => some "notification"
  | .agentStatusChanged => some "agent.status_change"
  | .auditSecurity => some "security"
  | .taskCreated => some "activity.task_created"
  | .taskUpdated => some "activity.task_updated"
  | .taskDeleted => some "activity.task_deleted"
  | .taskStatusChanged => some "activity.task_status_changed"
  | _ => none

/-- A field of a payload where it is truthy; the ones that are read here are texts. -/
def textField (data : Json) (key : String) : Option String :=
  match getField data key with
  | some (.string value) => truthy (some value)
  | _ => none

def webhookEventType (mapping : String) (data : Json) : String :=
  let detail :=
    if mapping = "activity" ∨ mapping = "notification" then textField data "type"
    else if mapping = "security" then textField data "action"
    else none
  match detail with
  | some detail => mapping ++ "." ++ detail
  | none => mapping

/-- The event type under which webhooks subscribe to the event. -/
def mappedType (event : Broadcast) : Option String :=
  (eventMap event.type).map fun mapping => webhookEventType mapping event.data

def isAgentError (event : Broadcast) : Bool :=
  event.type = .agentStatusChanged ∧ getField event.data "status" = some (.string "error")

/-- `typeof event.data?.workspace_id === 'number' ? event.data.workspace_id : 1`. -/
def workspaceOf (data : Json) : Rat :=
  match getField data "workspace_id" with
  | some (.number id) => id
  | _ => 1

/-- A call of `fireWebhooksAsync` that waits for the database. -/
structure Firing where
  eventType : String
  payload : Json
  workspaceId : Rat

/-- What the handler of `server-event` fires. -/
def serverEvent (event : Broadcast) : List Firing :=
  match mappedType event with
  | none => []
  | some webhookEventType =>
    ⟨webhookEventType, event.data, workspaceOf event.data⟩ ::
      if isAgentError event then [⟨"agent.error", event.data, workspaceOf event.data⟩] else []

/-- The rest of `fireWebhooksAsync`; no row has a workspace that is no natural number. -/
def fireWebhooksAsync (w : World) (firing : Firing) : World :=
  if firing.workspaceId = firing.workspaceId.num.toNat then
    fireWebhooks w firing.eventType firing.payload firing.workspaceId.num.toNat
  else w

/-- The deliveries that the listener starts because of the event. -/
def deliveries (w : World) (event : Broadcast) : List Delivery :=
  ((serverEvent event).foldl fireWebhooksAsync w).inFlight.drop w.inFlight.length

/-- `events.includes('*') || events.includes(eventType)`. -/
def Listens (wh : Webhook) (eventType : String) : Prop :=
  "*" ∈ wh.events ∨ eventType ∈ wh.events

/-- The webhooks as some history leaves them. -/
def Registered (w : World) : Prop :=
  ∃ env now trace, (machine env).run (World.empty now) trace = some w

/-- Whatever the webhooks are when the listener looks, it starts deliveries to webhooks of the
workspace only, and one to each that is enabled and subscribed to the event. -/
def Routed (workspaceId : Nat) (event : Broadcast) : Prop :=
  ∀ w, Registered w →
    (∀ d ∈ deliveries w event, ∃ wh ∈ w.webhooks, wh.id = d.webhookId ∧
      wh.workspaceId = workspaceId) ∧
    ∀ eventType, mappedType event = some eventType → ∀ wh ∈ w.webhooks, wh.enabled = true →
      wh.workspaceId = workspaceId → Listens wh eventType →
        (deliveries w event).countP (fun d => d.webhookId = wh.id) = 1

/-! ### One firing -/

theorem inFlight_fold (eventType : String) (payload : Json) (whs : List Webhook) (w : World) :
    ∃ ds : List Delivery,
      (whs.foldl (fun w wh => beginDelivery w wh.id wh.workspaceId wh.url wh.secret eventType payload
          ⟨0, none, true⟩) w).inFlight = w.inFlight ++ ds ∧
      ds.map (·.webhookId) = whs.map (·.id) := by
  induction whs generalizing w with
  | nil => exact ⟨[], by simp, rfl⟩
  | cons wh whs ih =>
    obtain ⟨ds, hflights, hids⟩ := ih (beginDelivery w wh.id wh.workspaceId wh.url wh.secret
      eventType payload ⟨0, none, true⟩)
    obtain ⟨d, -, hid, -, -, -, -, heq⟩ := DeliverySteps.beginDelivery_eq (w := w) wh.id
      wh.workspaceId wh.url wh.secret eventType payload ⟨0, none, true⟩
    refine ⟨d :: ds, ?_, by simp [hid, hids]⟩
    rw [List.foldl_cons, hflights, heq]
    simp

/-- The webhooks that a firing of the workspace is delivered to. -/
def subscribers (w : World) (eventType : String) (workspaceId : Nat) : List Webhook :=
  w.webhooks.filter fun wh => wh.enabled ∧ wh.workspaceId = workspaceId ∧
    ("*" ∈ wh.events ∨ eventType ∈ wh.events)

section

variable {event : Broadcast} {firing : Firing} {workspaceId : Nat}

theorem deliveries_of_single (hfired : serverEvent event = [firing])
    (hworkspace : firing.workspaceId = workspaceId) (w : World) :
    (deliveries w event).map (·.webhookId) =
      (subscribers w firing.eventType workspaceId).map (·.id) := by
  have hnumber : firing.workspaceId.num.toNat = workspaceId := by simp [hworkspace]
  obtain ⟨ds, hflights, hids⟩ := inFlight_fold firing.eventType firing.payload
    (subscribers w firing.eventType workspaceId) w
  have hlanded : ((serverEvent event).foldl fireWebhooksAsync w).inFlight = w.inFlight ++ ds := by
    rw [hfired, List.foldl_cons, List.foldl_nil, fireWebhooksAsync, hnumber, if_pos hworkspace]
    exact hflights
  rw [deliveries, hlanded, List.drop_left, hids]

/-- A firing of the workspace reaches those that it should. -/
theorem routed_of_single (hfired : serverEvent event = [firing])
    (hworkspace : firing.workspaceId = workspaceId) : Routed workspaceId event := by
  rintro w ⟨env, now, trace, hr⟩
  have hkeyed := (CircuitBreaker.counted_of_run hr).1.webhooks
  have hids := deliveries_of_single hfired hworkspace w
  constructor
  · intro d hd
    have hid : d.webhookId ∈ (subscribers w firing.eventType workspaceId).map (·.id) := by
      rw [← hids]
      exact List.mem_map_of_mem hd
    obtain ⟨wh, hwh, hid⟩ := List.mem_map.mp hid
    obtain ⟨hmem, hmatch⟩ := List.mem_filter.mp hwh
    exact ⟨wh, hmem, hid, (of_decide_eq_true hmatch).2.1⟩
  · intro eventType hmapped wh hwh henabled hown hlistens
    have htype : eventType = firing.eventType := by
      simp only [serverEvent, hmapped, List.cons.injEq] at hfired
      rw [← hfired.1]
    have hmem : wh ∈ subscribers w firing.eventType workspaceId := by
      rw [← htype]
      exact List.mem_filter.mpr ⟨hwh, decide_eq_true ⟨henabled, hown, hlistens⟩⟩
    have hnodup : ((subscribers w firing.eventType workspaceId).map (·.id)).Nodup :=
      hkeyed.unique.sublist (List.filter_sublist.map _)
    have hcount : (deliveries w event).countP (fun d => d.webhookId = wh.id) =
        ((deliveries w event).map (·.webhookId)).count wh.id := by
      rw [List.count, List.countP_map]
      rfl
    rw [hcount, hids]
    exact List.count_eq_one_of_mem hnodup (List.mem_map_of_mem hmem)

/-- An installation with one webhook, which listens to everything. -/
theorem registered_hook (workspaceId : Nat) :
    Registered (postWebhook (World.empty 0) hook workspaceId) :=
  ⟨twoAttempts, 0, [.postWebhook hook workspaceId], rfl⟩

theorem routed_iff_of_single {other : Nat} (hfired : serverEvent event = [firing])
    (hworkspace : firing.workspaceId = other) : Routed workspaceId event ↔ workspaceId = other := by
  constructor
  · intro hrouted
    by_contra hne
    obtain ⟨-, honce⟩ := hrouted _ (registered_hook workspaceId)
    have hnone : (deliveries (postWebhook (World.empty 0) hook workspaceId) event).map
        (·.webhookId) = [] := by
      rw [deliveries_of_single hfired hworkspace]
      simp [subscribers, postWebhook, World.empty, hne]
    rw [List.map_eq_nil_iff.mp hnone] at honce
    cases hmapped : mappedType event with
    | none => simp [serverEvent, hmapped] at hfired
    | some eventType =>
      have hzero := honce eventType hmapped _ List.mem_cons_self rfl rfl
        (.inl List.mem_cons_self)
      simp at hzero
  · rintro rfl
    exact routed_of_single hfired hworkspace

theorem routed_of_unmapped (h : eventMap event.type = none) : Routed workspaceId event := by
  have hmapped : mappedType event = none := by simp [mappedType, h]
  intro w _
  constructor
  · intro d hd
    simp [deliveries, serverEvent, hmapped] at hd
  · intro eventType htype
    simp [hmapped] at htype

/-- An event that is no agent's error fires once, for the workspace that it tells. -/
theorem routed_iff (hmapped : (eventMap event.type).isSome = true)
    (herror : isAgentError event = false) {other : Nat} (hworkspace : workspaceOf event.data = other) :
    Routed workspaceId event ↔ workspaceId = other := by
  obtain ⟨mapping, hmapping⟩ := Option.isSome_iff_exists.mp hmapped
  have hfired : serverEvent event =
      [⟨webhookEventType mapping event.data, event.data, workspaceOf event.data⟩] := by
    simp [serverEvent, mappedType, hmapping, herror]
  exact routed_iff_of_single hfired hworkspace

end

end MissionControl.Webhooks.Listener
