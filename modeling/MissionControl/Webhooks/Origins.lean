import MissionControl.Events.Announcements
import MissionControl.Events.Connections
import MissionControl.Webhooks.Listener
import MissionControl.Workload.RouteEvents

/-!
Which of the events that an operation announces stay with the webhooks of its workspace. Those whose
payload tells the workspace do; the others do exactly in the first workspace. This is said of every
helper and of every effect of a route, and composes.
-/

set_option autoImplicit false
set_option relaxedAutoImplicit false

namespace MissionControl.Webhooks.Origins

open MissionControl.Foundations.JsonValues (getField lookup_append)
open MissionControl.Foundations.Schema (Json lookup)
open MissionControl.Tasks.Validation
open MissionControl.Tasks.Database
open MissionControl.Events.Bus
open MissionControl.Events.Stores
open MissionControl.Events.Producers
open MissionControl.Events.Announcements
open MissionControl.Workload.RouteEvents (Tagged)
open Listener

/-- The change is announced, and the listener keeps all of it in the workspace unless something of
it is untagged and the workspace is not the first. -/
def Announced (workspaceId : Nat) (w w' : World) (untagged : Prop) : Prop :=
  ∃ events, Grows w w' events ∧
    ((∀ event ∈ events, Routed workspaceId event) ↔ (untagged → workspaceId = 1))

variable {workspaceId : Nat} {w w' w'' : World} {untagged untagged' : Prop}

/-! ### Composition -/

theorem Announced.congr (h : Announced workspaceId w w' untagged) (hsame : untagged ↔ untagged') :
    Announced workspaceId w w' untagged' := by
  rw [← propext hsame]
  exact h

theorem Announced.kept {flag : Bool} (hflag : flag = false)
    (h : Announced workspaceId w w' False) : Announced workspaceId w w' (flag = true) :=
  h.congr (by simp [hflag])

theorem Announced.strayed {flag : Bool} (hflag : flag = true)
    (h : Announced workspaceId w w' True) : Announced workspaceId w w' (flag = true) :=
  h.congr (by simp [hflag])

theorem Announced.trans (h : Announced workspaceId w w' untagged)
    (h' : Announced workspaceId w' w'' untagged') :
    Announced workspaceId w w'' (untagged ∨ untagged') := by
  obtain ⟨events, hgrows, hrouted⟩ := h
  obtain ⟨events', hgrows', hrouted'⟩ := h'
  refine ⟨events ++ events', hgrows.trans hgrows', ?_⟩
  rw [List.forall_mem_append, hrouted, hrouted', or_imp]

theorem Announced.silent (hclients : w'.clients = w.clients) :
    Announced workspaceId w w' False := by
  refine ⟨[], ?_, by simp⟩
  simp [Grows, hclients]

theorem Announced.of_start (hclients : w.clients = w'.clients)
    (h : Announced workspaceId w' w'' untagged) : Announced workspaceId w w'' untagged := by
  obtain ⟨events, hgrows, hrouted⟩ := h
  refine ⟨events, ?_, hrouted⟩
  unfold Grows at hgrows ⊢
  rw [hclients]
  exact hgrows

theorem Announced.of_end (hclients : w''.clients = w'.clients)
    (h : Announced workspaceId w w' untagged) : Announced workspaceId w w'' untagged := by
  obtain ⟨events, hgrows, hrouted⟩ := h
  refine ⟨events, ?_, hrouted⟩
  unfold Grows at hgrows ⊢
  rw [hclients]
  exact hgrows

/-- What keeps to the workspace, and then something else. -/
theorem Announced.then (h : Announced workspaceId w w' False)
    (h' : Announced workspaceId w' w'' untagged) : Announced workspaceId w w'' untagged :=
  (h.trans h').congr (by simp)

theorem Announced.and_then (h : Announced workspaceId w w' untagged)
    (h' : Announced workspaceId w' w'' False) : Announced workspaceId w w'' untagged :=
  (h.trans h').congr (by simp)

/-! ### Single events -/

section

variable {type : EventType} {data : Json}

theorem announced_event (w : World)
    (h : Routed workspaceId ⟨type, data⟩ ↔ (untagged → workspaceId = 1)) :
    Announced workspaceId w (w.broadcast type data) untagged := by
  refine ⟨[⟨type, data⟩], rfl, ?_⟩
  simpa using h

/-- An event that no webhook can subscribe to. -/
theorem announced_unmapped (w : World) (h : eventMap type = none) :
    Announced workspaceId w (w.broadcast type data) False := by
  have hrouted : Routed workspaceId ⟨type, data⟩ := routed_of_unmapped h
  apply announced_event
  simp [hrouted]

/-- An event whose payload tells the workspace. -/
theorem announced_tagged (w : World) (hmapped : (eventMap type).isSome = true)
    (hstatus : type ≠ .agentStatusChanged)
    (hworkspace : getField data "workspace_id" = some (natural workspaceId)) :
    Announced workspaceId w (w.broadcast type data) False := by
  apply announced_event
  have hown : workspaceOf data = workspaceId := by simp [workspaceOf, hworkspace, natural]
  have hrouted : Routed workspaceId ⟨type, data⟩ ↔ workspaceId = workspaceId :=
    routed_iff hmapped (by simp [isAgentError, hstatus]) hown
  rw [hrouted]
  simp

/-- An event whose payload does not. -/
theorem announced_untagged (w : World) (hmapped : (eventMap type).isSome = true)
    (hstatus : isAgentError ⟨type, data⟩ = false)
    (hworkspace : getField data "workspace_id" = none) :
    Announced workspaceId w (w.broadcast type data) True := by
  apply announced_event
  have hfirst : workspaceOf data = ((1 : Nat) : Rat) := by simp [workspaceOf, hworkspace]
  have hrouted : Routed workspaceId ⟨type, data⟩ ↔ workspaceId = 1 :=
    routed_iff hmapped hstatus hfirst
  rw [hrouted]
  simp

end

/-! ### The helpers of the database -/

variable (w)

theorem announced_logActivity (type entityType : String) (entityId : Nat)
    (actor description : String) (data : Option Json) :
    Announced workspaceId w
      (w.logActivity type entityType entityId actor description data workspaceId) False := by
  refine Announced.of_start ?_ (announced_tagged _ rfl ?_ ?_)
  · rfl
  · simp
  · simp [getField, Activity.payload, lookup]

theorem announced_createNotification (recipient type title message : String)
    (sourceType : Option String) (sourceId : Option Nat) :
    Announced workspaceId w
      (w.createNotification recipient type title message sourceType sourceId workspaceId)
      False := by
  refine Announced.of_start ?_ (announced_tagged _ rfl ?_ ?_)
  · rfl
  · simp
  · simp [getField, Notification.payload, World.newNotification, lookup]

/-- A status that is no error is announced without the workspace where there is an agent. -/
theorem announced_updateAgentStatus {status : String} (hstatus : status ≠ "error")
    (agentName activity : String) :
    Announced workspaceId w (w.updateAgentStatus agentName status activity workspaceId)
      ((w.agentNamed workspaceId agentName).isSome = true) := by
  unfold World.updateAgentStatus
  dsimp only
  refine Announced.and_then ?_ (announced_logActivity _ _ _ _ _ _ _)
  cases w.agentNamed workspaceId agentName with
  | none => exact (Announced.silent rfl).congr (by simp)
  | some agent =>
    refine (Announced.of_start ?_ (announced_untagged _ rfl ?_ ?_)).congr (by simp)
    · rfl
    · simp [isAgentError, getField, lookup, hstatus]
    · simp [getField, lookup]

/-! ### The effects of a route -/

variable (data : Json)

/-- Effects that are tagged with the workspace keep to it. -/
theorem announced_effect {effect : Effect} (h : Tagged workspaceId effect) :
    Announced workspaceId w (announceEffect data workspaceId w effect) False := by
  cases effect with
  | activity tag type taskId actor description =>
    obtain rfl : tag = workspaceId := h
    exact announced_logActivity w type "task" taskId actor description (some data)
  | notification tag recipient type title message taskId =>
    obtain rfl : tag = workspaceId := h
    exact announced_createNotification w recipient type title message (some "task") (some taskId)
  | subscription tag taskId agent => exact Announced.silent rfl
  | broadcast event taskId status =>
    obtain rfl : status = none := h
    simp only [announceEffect]
    cases hrow : w.tasks.task? workspaceId taskId with
    | none => exact Announced.silent rfl
    | some task =>
      have hown : task.workspaceId = workspaceId := by
        have hfound := List.find?_some hrow
        simp only [decide_eq_true_eq] at hfound
        exact hfound.2
      apply announced_tagged
      · split <;> rfl
      · split <;> simp
      · simp [getField, taskPayload, taskColumns, lookup, hown]

theorem announced_effects {effects : List Effect}
    (h : ∀ effect ∈ effects, Tagged workspaceId effect) :
    Announced workspaceId w (effects.foldl (announceEffect data workspaceId) w) False := by
  induction effects generalizing w with
  | nil => exact Announced.silent rfl
  | cons effect effects ih =>
    rw [List.foldl_cons]
    exact (announced_effect w data (h effect List.mem_cons_self)).then
      (ih _ fun other hother => h other (List.mem_cons_of_mem _ hother))

/-- The status of a task is announced without the workspace. -/
theorem announced_status (event : String) (taskId : Nat) (status : TaskStatus) :
    Announced workspaceId w
      (announceEffect data workspaceId w (.broadcast event taskId (some status))) True := by
  apply announced_untagged
  · rfl
  · simp [isAgentError]
  · simp [getField, lookup]

theorem announced_settle {db : Db}
    (h : ∀ effect ∈ db.effects, Tagged workspaceId effect) :
    Announced workspaceId w (settle data workspaceId w db) False :=
  Announced.of_start rfl (announced_effects _ data h)

end MissionControl.Webhooks.Origins
