import MissionControl.Events.Announcements
import MissionControl.Workload.Operations

/-!
What the requests of the task API announce, apart from the bulk update: a change of status that a
route tells by itself is in the tables by then, and the other events read their row back.
-/

set_option autoImplicit false
set_option relaxedAutoImplicit false

namespace MissionControl.Workload.RouteEvents

open MissionControl.Foundations.Lists
open MissionControl.Foundations.Schema (Json)
open MissionControl.Tasks.Validation
open MissionControl.Tasks.Database
open MissionControl.Tasks.Routes
open MissionControl.Tasks.RouteSteps (Request serve createTaskTx_some)
open MissionControl.Events.Stores
open MissionControl.Events.Producers
open MissionControl.Events.Announcements

/-- The effect tells no status by itself. -/
def Plain : Effect → Prop
  | .broadcast _ _ (some _) => False
  | _ => True

theorem Plain.written {effect : Effect} (h : Plain effect) (db : Db) (workspaceId : Nat) :
    Written db workspaceId effect := by
  cases effect with
  | activity => trivial
  | subscription => trivial
  | notification => trivial
  | broadcast name taskId status =>
    cases status with
    | none => trivial
    | some status => exact absurd h not_false

/-- The effect is one for the workspace, and tells no status by itself. -/
def Tagged (workspaceId : Nat) : Effect → Prop
  | .activity tag _ _ _ _ => tag = workspaceId
  | .notification tag _ _ _ _ _ => tag = workspaceId
  | .subscription _ _ _ => True
  | .broadcast _ _ status => status = none

theorem Tagged.plain {workspaceId : Nat} {effect : Effect} (h : Tagged workspaceId effect) :
    Plain effect := by
  cases effect with
  | activity => trivial
  | subscription => trivial
  | notification => trivial
  | broadcast name taskId status =>
    obtain rfl : status = none := h
    trivial

theorem tagged_mentionEffects (workspaceId taskId : Nat) (actor title : String)
    (recipients : List String) :
    ∀ effect ∈ mentionEffects workspaceId taskId actor title recipients, Tagged workspaceId effect := by
  intro effect heffect
  obtain ⟨recipient, -, heffect⟩ := List.mem_flatMap.mp heffect
  rcases List.mem_cons.mp heffect with rfl | heffect
  · trivial
  · split at heffect
    · cases heffect
    · obtain rfl := List.mem_singleton.mp heffect
      trivial

theorem tagged_assignmentEffects (workspaceId taskId : Nat) (assignee title : String) :
    ∀ effect ∈ assignmentEffects workspaceId taskId assignee title, Tagged workspaceId effect := by
  simp [assignmentEffects, Tagged]

theorem tagged_updateEffects (ctx : Context) (body : TaskBody) (status : Option TaskStatus)
    (task : Task) :
    ∀ effect ∈ updateEffects ctx body status task, Tagged ctx.user.workspaceId effect := by
  unfold updateEffects
  simp only [List.forall_mem_append]
  refine ⟨⟨⟨⟨?_, ?_⟩, ?_⟩, ?_⟩, ?_⟩
  · split
    · split <;> simp [Tagged]
    · simp
  · split
    · split
      · simp
      · exact tagged_assignmentEffects _ _ _ _
    · simp
  · split
    · exact tagged_mentionEffects _ _ _ _ _
    · simp
  · split <;> simp [Tagged]
  · simp [Tagged]

section

variable {ctx : Context} {db : Db}

/-- A transaction that creates a task announces nothing yet. -/
theorem effects_createTaskTx {requested : Option Nat} {row : (id projectId no : Nat) → Task}
    {db' : Db} (h : createTaskTx ctx db requested row = some db') : db'.effects = db.effects := by
  obtain ⟨project, -, rfl⟩ := createTaskTx_some h
  rfl

theorem tagged_postTask (heffects : db.effects = []) (json : Json) :
    ∀ effect ∈ (postTask ctx db json).1.effects, Tagged ctx.user.workspaceId effect := by
  unfold postTask
  dsimp only
  split
  · simp [heffects]
  · split
    · simp [heffects]
    · split
      · simp [heffects]
      · split
        · simp [heffects]
        · rename_i body _ _ created hcreated
          simp only [Db.emit, effects_createTaskTx hcreated, heffects, List.nil_append,
            List.forall_mem_append]
          refine ⟨⟨⟨⟨?_, ?_⟩, ?_⟩, ?_⟩, ?_⟩
          · simp [Tagged]
          · split <;> simp [Tagged]
          · exact tagged_mentionEffects _ _ _ _ _
          · split
            · exact tagged_assignmentEffects _ _ _ _
            · simp
          · simp [Tagged]

theorem tagged_nimbusTask (heffects : db.effects = []) (params : NimbusTask) :
    ∀ effect ∈ (nimbusTask ctx db params).1.effects, Tagged ctx.user.workspaceId effect := by
  unfold nimbusTask
  dsimp only
  split
  · simp [heffects]
  · rename_i created hcreated
    simp [Db.emit, effects_createTaskTx hcreated, heffects, Tagged]

variable (ctx db) in
theorem effects_moveProject (task : Task) (projectId : Option Nat) :
    (moveProject ctx db task projectId).1.effects = db.effects := by
  unfold moveProject
  split
  · rfl
  · dsimp only
    split
    · rfl
    · split
      · rfl
      · simp only [allocateTicket]
        split <;> rename_i heq <;> obtain ⟨rfl, -⟩ := Prod.mk.inj heq <;> rfl

theorem tagged_putTask (heffects : db.effects = []) (taskId : Nat) (json : Json) :
    ∀ effect ∈ (putTask ctx db taskId json).1.effects, Tagged ctx.user.workspaceId effect := by
  unfold putTask
  dsimp only
  split
  · simp [heffects]
  · rename_i body hbody
    split
    · simp [heffects]
    · rename_i currentTask hrow
      split
      · simp [heffects]
      · split
        · simp [heffects]
        · have hmoved := effects_moveProject ctx db currentTask (body .project_id)
          split
          · rename_i moved response heq
            rw [heq] at hmoved
            have hnone : moved.effects = [] := Eq.trans hmoved heffects
            simp [hnone]
          · rename_i moved ticketNo heq
            rw [heq] at hmoved
            have hnone : moved.effects = [] := Eq.trans hmoved heffects
            split
            · simp [hnone]
            · have hupdated : (moved.updateTask ctx.user.workspaceId taskId (updatedTask body
                  (normalizeTaskUpdateStatus currentTask.status (body .status) (body .assigned_to)
                    (body .assigned_to).isSome) ticketNo ctx.now)).effects = [] := hnone
              simp only [Db.emit, hupdated, List.nil_append]
              exact tagged_updateEffects _ _ _ _

theorem effects_pickup (agent : String) (attempts : Nat) :
    (pickup ctx agent attempts db).1.effects = db.effects := by
  induction attempts with
  | zero => rfl
  | succ attempts ih =>
    unfold pickup
    dsimp only
    split
    · rfl
    · split
      · rfl
      · exact ih

theorem effects_pollQueue (agentParam agentHeader maxCapacityParam : String) :
    (pollQueue ctx db agentParam agentHeader maxCapacityParam).1.effects = db.effects := by
  unfold pollQueue
  dsimp only
  split
  · rfl
  · split
    · rfl
    · split
      · rfl
      · split
        · rfl
        · exact effects_pickup _ 5

/-- The review tells the status that it has just written. -/
theorem written_postReview (heffects : db.effects = []) (json : Json) :
    ∀ effect ∈ (postReview ctx db json).1.effects,
      Written (postReview ctx db json).1 ctx.user.workspaceId effect := by
  unfold postReview
  dsimp only
  split
  · simp [heffects]
  · split
    · simp [heffects]
    · rename_i task hrow
      obtain ⟨id, -, hrow⟩ := Option.bind_eq_some_iff.mp hrow
      have hfound := List.find?_some hrow
      simp only [decide_eq_true_eq] at hfound
      split
      · simp only [Db.emit, Db.updateTask, heffects, List.nil_append, List.forall_mem_append]
        refine ⟨?_, ?_⟩
        · simp [Written]
        · intro effect heffect
          obtain rfl := List.mem_singleton.mp heffect
          refine ⟨_, List.mem_map_of_mem (List.mem_of_find?_eq_some hrow), ?_⟩
          rw [if_pos ⟨rfl, hfound.2⟩]
          exact ⟨hfound.2, rfl, rfl⟩
      · simp [Db.emit, heffects, Written]

variable (ctx) in
/-- A request that writes no status for many tasks or by a review tags all that it announces. -/
theorem tagged_serve (heffects : db.effects = []) {request : Request}
    (hbulk : ∀ json, request ≠ .putTasks json) (hreview : ∀ json, request ≠ .postReview json) :
    ∀ effect ∈ (serve ctx db request).1.effects, Tagged ctx.user.workspaceId effect := by
  intro effect heffect
  cases request with
  | putTasks json => exact absurd rfl (hbulk json)
  | postReview json => exact absurd rfl (hreview json)
  | postTask json => exact tagged_postTask heffects json effect heffect
  | nimbusTask params => exact tagged_nimbusTask heffects params effect heffect
  | putTask taskId json => exact tagged_putTask heffects taskId json effect heffect
  | pollQueue agentParam agentHeader maxCapacityParam =>
    have hnone : (pollQueue ctx db agentParam agentHeader maxCapacityParam).1.effects = [] :=
      (effects_pollQueue agentParam agentHeader maxCapacityParam).trans heffects
    simp only [serve, hnone] at heffect
    cases heffect

variable (ctx) in
theorem written_serve (heffects : db.effects = []) {request : Request}
    (hrequest : ∀ json, request ≠ .putTasks json) :
    ∀ effect ∈ (serve ctx db request).1.effects,
      Written (serve ctx db request).1 ctx.user.workspaceId effect := by
  intro effect heffect
  by_cases hreview : ∃ json, request = .postReview json
  · obtain ⟨json, rfl⟩ := hreview
    exact written_postReview heffects json effect heffect
  · have htagged := tagged_serve ctx heffects hrequest fun json hjson => hreview ⟨json, hjson⟩
    exact (htagged effect heffect).plain.written _ _

/-- A request that is answered with an error has nothing to announce. -/
theorem effects_of_error {request : Request} (hrequest : ∀ json, request ≠ .putTasks json)
    {status : Nat} {message : String} (h : (serve ctx db request).2 = .error status message) :
    (serve ctx db request).1.effects = db.effects := by
  cases request with
  | putTasks json => exact absurd rfl (hrequest json)
  | pollQueue agentParam agentHeader maxCapacityParam =>
    simp only [serve]
    exact effects_pollQueue agentParam agentHeader maxCapacityParam
  | postTask json =>
    unfold serve postTask at h ⊢
    dsimp only at h ⊢
    split
    · rfl
    · rename_i body hbody
      simp only [hbody] at h
      split
      · rfl
      · rename_i hnew
        rw [if_neg hnew] at h
        split
        · rfl
        · rename_i hmentions
          rw [if_neg hmentions] at h
          split
          · rfl
          · rename_i created hcreated
            simp [hcreated] at h
  | nimbusTask params =>
    unfold serve nimbusTask at h ⊢
    dsimp only at h ⊢
    split
    · rfl
    · rename_i created hcreated
      simp [hcreated] at h
  | postReview json =>
    unfold serve postReview at h ⊢
    dsimp only at h ⊢
    split
    · rfl
    · rename_i review hreview
      simp only [hreview] at h
      split
      · rfl
      · rename_i task hrow
        simp only [hrow] at h
        split at h <;> cases h
  | putTask taskId json =>
    unfold serve putTask at h ⊢
    dsimp only at h ⊢
    split
    · rfl
    · rename_i body hbody
      simp only [hbody] at h
      split
      · rfl
      · rename_i currentTask hrow
        simp only [hrow] at h
        split
        · rfl
        · rename_i hmentions
          rw [if_neg hmentions] at h
          split
          · rfl
          · rename_i hgate
            rw [if_neg hgate] at h
            have hmoved := effects_moveProject ctx db currentTask (body .project_id)
            split
            · rename_i moved response heq
              rw [heq] at hmoved
              exact hmoved
            · rename_i moved ticketNo heq
              rw [heq] at hmoved
              simp only [heq] at h
              split
              · exact hmoved
              · rename_i hfields
                rw [if_neg hfields] at h
                cases h

end

theorem serveTask_fst (queries : TaskQueries) (w : World) (workspaceId : Nat) (caller : Caller)
    {request : Request} (hrequest : ∀ json, request ≠ .putTasks json) :
    (serveTask queries w workspaceId caller request).1 =
      settle (activityData w.tasks workspaceId request) workspaceId w
        (serve (queries.context w workspaceId caller) w.tasks request).1 := by
  cases request with
  | putTasks json => exact absurd rfl (hrequest json)
  | postTask json | putTask taskId json | pollQueue agentParam agentHeader maxCapacityParam
    | postReview json | nimbusTask params =>
    unfold serveTask
    dsimp only

/-- What a request other than the bulk update announces is true. -/
theorem serveTask_announces (queries : TaskQueries) (w : World) (workspaceId : Nat)
    (caller : Caller) {request : Request} (heffects : w.tasks.effects = [])
    (hrequest : ∀ json, request ≠ .putTasks json) :
    ∃ events, Announces w (serveTask queries w workspaceId caller request).1 events ∧
      ∀ event ∈ events, TellsStatus event →
        TrueOf (serveTask queries w workspaceId caller request).1.tasks workspaceId event := by
  rw [serveTask_fst queries w workspaceId caller hrequest]
  have hwritten := written_serve (queries.context w workspaceId caller) heffects hrequest
  generalize (serve (queries.context w workspaceId caller) w.tasks request).1 = db at hwritten
  exact settle_announces _ workspaceId w hwritten

end MissionControl.Workload.RouteEvents
