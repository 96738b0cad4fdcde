import MissionControl.Webhooks.Routing
import MissionControl.Workload.TruthfulEvents

/-!
What the streams of `GET /api/events` are sent over a run. Whatever the requests are about, each of
them sends the same events to all open streams; so a stream that stays open misses nothing, and two
streams never disagree on the order.
-/

set_option autoImplicit false
set_option relaxedAutoImplicit false

namespace MissionControl.Events.Delivery

open MissionControl.Foundations.Transition (Machine)
open MissionControl.Events.Announcements (Grows)
open MissionControl.Events.Connections
open MissionControl.Events.Stream hiding Event machine
open MissionControl.Webhooks.Routing (ofStream announced_act)
open MissionControl.Workload.Operations (tasks_settle)
open MissionControl.Workload.RouteEvents (serveTask_fst)
open MissionControl.Workload.TruthfulEvents (effects_putTasks)
open Bus Stores Producers

/-- The clock, or an action in a workspace. -/
inductive Event where
  | wait (milliseconds : Nat)
  | inside (workspaceId : Nat) (action : Action)

variable {setting : Setting} {w w' w'' : World} {workspaceId : Nat}

def machine (setting : Setting) : Machine World Event where
  step w
    | .wait milliseconds =>
      some { w with rooms := { w.rooms with
        tables := { w.rooms.tables with now := w.rooms.tables.now + milliseconds } } }
    | .inside workspaceId action => (act setting w workspaceId action).map Prod.fst

/-! ### Between the requests -/

theorem tasks_announceRoom (broadcasts : List Broadcast) :
    (broadcasts.foldl (announceRoom workspaceId) w).tasks = w.tasks := by
  induction broadcasts generalizing w with
  | nil => rfl
  | cons b broadcasts ih =>
    rw [List.foldl_cons, ih]
    unfold announceRoom
    split
    · rfl
    · rfl

theorem effects_serveTask (queries : TaskQueries) (caller : Caller)
    (request : Tasks.RouteSteps.Request) (h : w.tasks.effects = []) :
    (serveTask queries w workspaceId caller request).1.tasks.effects = [] := by
  cases request with
  | putTasks json => exact effects_putTasks h json
  | postTask json | putTask taskId json | pollQueue agentParam agentHeader maxCapacityParam
    | postReview json | nimbusTask params =>
    rw [serveTask_fst queries w workspaceId caller (by rintro _ ⟨⟩), tasks_settle]
    rfl

theorem effects_deleteTask (caller : Caller) (taskId : Nat) (h : w.tasks.effects = []) :
    (deleteTask w workspaceId caller taskId).1.tasks.effects = [] := by
  unfold deleteTask
  split
  · exact h
  · exact h

theorem tasks_postAgent (caller : Caller) (body : NewAgent) (failure : Option String) :
    (postAgent w workspaceId caller body failure).1.tasks = w.tasks := by
  unfold postAgent
  split
  · split
    · rfl
    · split
      · rfl
      · split
        · rfl
        · rfl
  · rfl

theorem tasks_putAgents (name : String) (updates : AgentUpdates) :
    (putAgents w workspaceId name updates).1.tasks = w.tasks := by
  unfold putAgents
  split
  · rfl
  · split
    · rfl
    · split
      · rfl
      · split
        · rfl
        · dsimp only
          split
          · split
            · rfl
            · rfl
          · rfl

theorem tasks_putAgent (caller : Caller) (target : Gateway.AgentSave.Target) (body : AgentSave)
    (failure : Option String) :
    (putAgent w workspaceId caller target body failure).1.tasks = w.tasks := by
  unfold putAgent
  split
  · rfl
  · dsimp only
    split
    · rfl
    · split
      · rfl
      · rfl

theorem tasks_deleteAgent (caller : Caller) (target : Gateway.AgentSave.Target) :
    (deleteAgent w workspaceId caller target).1.tasks = w.tasks := by
  unfold deleteAgent
  split
  · rfl
  · rfl

theorem tasks_updateAgentStatus (agentName status activity : String) :
    (w.updateAgentStatus agentName status activity workspaceId).tasks = w.tasks := by
  unfold World.updateAgentStatus
  dsimp only
  split
  · rfl
  · rfl

theorem tasks_wakeAgent (target : Gateway.AgentSave.Target) (failure : Option String) :
    (wakeAgent w workspaceId target failure).1.tasks = w.tasks := by
  unfold wakeAgent
  split
  · rfl
  · split
    · rfl
    · split
      · rfl
      · exact tasks_updateAgentStatus _ _ _

theorem tasks_heartbeat (target : Gateway.AgentSave.Target) (workItems : List String) :
    (heartbeat w workspaceId target workItems).1.tasks = w.tasks := by
  unfold heartbeat
  split
  · rfl
  · exact tasks_updateAgentStatus _ _ _

theorem tasks_connect (body : ConnectBody) (connectionId : String) :
    (connect w workspaceId body connectionId).1.tasks = w.tasks := by
  have hagent : ∀ online, connectAgent w workspaceId body = some online →
      online.1.tasks = w.tasks := by
    intro online h
    unfold connectAgent at h
    split at h
    · split at h
      · cases h
      · obtain rfl := Option.some.inj h
        rfl
    · obtain rfl := Option.some.inj h
      rfl
  unfold connect
  split
  · rfl
  · rename_i honline
    have hkept := hagent _ honline
    exact hkept

theorem tasks_announceMessage (messageId : Nat) :
    (announceMessage w workspaceId messageId).tasks = w.tasks := by
  unfold announceMessage
  split
  · rfl
  · rfl

theorem tasks_postMessage (caller : Caller) (body : ChatBody) :
    (postMessage w workspaceId caller body).1.tasks = w.tasks := by
  unfold postMessage
  dsimp only
  split
  · rfl
  · split
    · exact tasks_announceMessage _
    · split
      · rfl
      · exact tasks_announceMessage _

theorem tasks_chatReply (coordinator : String) (forwarded : Forwarding)
    (content messageType : String) (metadata : Foundations.Schema.Json) :
    (chatReply coordinator w forwarded content messageType metadata).tasks = w.tasks := by
  unfold chatReply
  split
  · rfl
  · rfl

theorem tasks_patchMessage (messageId : Nat) (read : Bool) :
    (patchMessage w workspaceId messageId read).1.tasks = w.tasks := by
  unfold patchMessage
  split
  · rfl
  · rfl

/-- What is to be announced has been announced when an action is over. -/
theorem effects_act {action : Action} {answer : Answer} (h : w.tasks.effects = [])
    (hact : act setting w workspaceId action = some (w', answer)) : w'.tasks.effects = [] := by
  have hkept : ∀ {w₁ : World}, w₁.tasks = w.tasks → w₁.tasks.effects = [] := fun htasks => by
    rw [htasks]
    exact h
  cases action with
  | connect body connectionId =>
    obtain rfl := congrArg Prod.fst (Option.some.inj hact)
    exact hkept (tasks_connect body connectionId)
  | heartbeat target workItems =>
    obtain rfl := congrArg Prod.fst (Option.some.inj hact)
    exact hkept (tasks_heartbeat target workItems)
  | operation operation =>
    simp only [act] at hact
    cases operation with
    | subscribe client =>
      simp only [perform] at hact
      split at hact
      · cases hact
      · obtain rfl := congrArg Prod.fst (Option.some.inj hact)
        exact h
    | task queries caller request =>
      obtain rfl := congrArg Prod.fst (Option.some.inj hact)
      exact effects_serveTask queries caller request h
    | deleteTask caller taskId =>
      obtain rfl := congrArg Prod.fst (Option.some.inj hact)
      exact effects_deleteTask caller taskId h
    | postAgent caller body failure =>
      obtain rfl := congrArg Prod.fst (Option.some.inj hact)
      exact hkept (tasks_postAgent caller body failure)
    | putAgents name updates =>
      obtain rfl := congrArg Prod.fst (Option.some.inj hact)
      exact hkept (tasks_putAgents name updates)
    | putAgent caller target body failure =>
      obtain rfl := congrArg Prod.fst (Option.some.inj hact)
      exact hkept (tasks_putAgent caller target body failure)
    | deleteAgent caller target =>
      obtain rfl := congrArg Prod.fst (Option.some.inj hact)
      exact hkept (tasks_deleteAgent caller target)
    | wakeAgent target failure =>
      obtain rfl := congrArg Prod.fst (Option.some.inj hact)
      exact hkept (tasks_wakeAgent target failure)
    | postMessage caller body =>
      obtain rfl := congrArg Prod.fst (Option.some.inj hact)
      exact hkept (tasks_postMessage caller body)
    | chatReply forwarded content messageType metadata =>
      simp only [perform] at hact
      split at hact
      · obtain rfl := congrArg Prod.fst (Option.some.inj hact)
        exact hkept (tasks_chatReply _ forwarded content messageType metadata)
      · cases hact
    | finishForward forwarded =>
      simp only [perform] at hact
      split at hact
      · obtain rfl := congrArg Prod.fst (Option.some.inj hact)
        exact hkept (tasks_announceMessage _)
      · cases hact
    | patchMessage messageId read =>
      obtain rfl := congrArg Prod.fst (Option.some.inj hact)
      exact hkept (tasks_patchMessage messageId read)
    | cancel | readNotifications | deleteNotifications | markDelivered =>
      obtain rfl := congrArg Prod.fst (Option.some.inj hact)
      exact h
    | room request =>
      simp only [perform] at hact
      split at hact
      · obtain ⟨performed, -, heq⟩ := Option.map_eq_some_iff.mp hact
        obtain rfl := congrArg Prod.fst heq
        exact hkept (tasks_announceRoom _)
      · cases hact

/-! ### What the streams are sent -/

/-- A stream that was sent these events on top of those from before. -/
def extended (client : Client) (events : List Broadcast) : Client :=
  { client with received := client.received ++ events }

/-- The event closes the stream. -/
def closes (client : Client) : Event → Prop
  | .inside workspaceId (.operation (.cancel id)) =>
    id = client.id ∧ workspaceId = client.workspaceId
  | _ => False

/-- The streams of `w` that were not closed meanwhile were sent exactly the events, and each one
that was opened meanwhile the last ones of them. -/
structure Delivered (w w' : World) (closed : Client → Prop) (events : List Broadcast) : Prop where
  all : ∀ client ∈ w.clients, ¬ closed client → extended client events ∈ w'.clients
  only : ∀ client ∈ w'.clients, (∃ earlier ∈ w.clients, client = extended earlier events) ∨
    client.received <:+ events

theorem extended_nil (client : Client) : extended client [] = client := by
  simp [extended]

theorem extended_extended (client : Client) (events events' : List Broadcast) :
    extended (extended client events) events' = extended client (events ++ events') := by
  simp [extended]

theorem delivered_of_grows {events : List Broadcast} (h : Grows w w' events)
    (closed : Client → Prop) : Delivered w w' closed events where
  all client hclient _ := by
    rw [h]
    exact List.mem_map_of_mem hclient
  only client hclient := by
    rw [h] at hclient
    obtain ⟨earlier, hearlier, rfl⟩ := List.mem_map.mp hclient
    exact .inl ⟨earlier, hearlier, rfl⟩

/-- One event of a run. -/
theorem delivered_of_step {e : Event} (heffects : w.tasks.effects = [])
    (hstep : (machine setting).step w e = some w') :
    ∃ events, Delivered w w' (closes · e) events := by
  cases e with
  | wait milliseconds =>
    obtain rfl := Option.some.inj hstep
    exact ⟨[], delivered_of_grows (by simp [Grows]) _⟩
  | inside workspaceId action =>
    obtain ⟨⟨after, answer⟩, hact, rfl⟩ := Option.map_eq_some_iff.mp hstep
    cases hstream : ofStream action with
    | false =>
      obtain ⟨events, hgrows, -⟩ := announced_act heffects hstream hact
      exact ⟨events, delivered_of_grows hgrows _⟩
    | true =>
      refine ⟨[], ?_⟩
      cases action with
      | connect | heartbeat => cases hstream
      | operation operation =>
        simp only [act] at hact
        cases operation with
        | subscribe id =>
          simp only [perform] at hact
          split at hact
          · cases hact
          · obtain rfl := congrArg Prod.fst (Option.some.inj hact)
            constructor
            · intro client hclient _
              rw [extended_nil]
              exact List.mem_append_left _ hclient
            · intro client hclient
              rcases List.mem_append.mp hclient with hclient | hclient
              · exact .inl ⟨client, hclient, (extended_nil client).symm⟩
              · rw [List.mem_singleton.mp hclient]
                exact .inr List.suffix_rfl
        | cancel id =>
          obtain rfl := congrArg Prod.fst (Option.some.inj hact)
          constructor
          · intro client hclient hopen
            rw [extended_nil]
            refine List.mem_filter.mpr ⟨hclient, decide_eq_true ?_⟩
            exact fun h => hopen ⟨h.1.symm, h.2.symm⟩
          · intro client hclient
            exact .inl ⟨client, List.mem_of_mem_filter hclient, (extended_nil client).symm⟩
        | _ => cases hstream

/-- A stream of the first workspace is opened before a task of the second is put under review. -/
def openedBefore : List Event :=
  [.inside 1 (.operation (.subscribe 5)), .inside 2 Webhooks.Routing.putUnderReview]

end MissionControl.Events.Delivery
