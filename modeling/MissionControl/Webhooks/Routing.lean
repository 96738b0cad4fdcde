import MissionControl.DataRooms.LinkSessions
import MissionControl.Webhooks.Origins
import MissionControl.Workload.BulkEvents

/-!
Whether the webhooks that hear of an operation are those of its workspace. A change of status of a
task or an agent, the deletion of a task and the entry of a visitor are announced without the
workspace, so that outside the first workspace they are delivered to strangers, and nobody else.
-/

set_option autoImplicit false
set_option relaxedAutoImplicit false

namespace MissionControl.Webhooks.Routing

open MissionControl.Foundations.JsText
open MissionControl.Foundations.JsonValues (getField)
open MissionControl.Foundations.Query (FirstBy)
open MissionControl.Foundations.Schema
open MissionControl.Tasks.Validation
open MissionControl.Tasks.Database
open MissionControl.Tasks.Routes (bulkItems rowId)
open MissionControl.Tasks.RouteSteps (Request serve)
open MissionControl.DataRooms.Routes (wrongPasscode)
open MissionControl.DataRooms.Rooms (createVisitor)
open MissionControl.Events.Bus
open MissionControl.Events.Stores
open MissionControl.Events.Producers
open MissionControl.Events.Stream
open MissionControl.Events.Connections
open MissionControl.Events.Announcements
open MissionControl.Workload
open MissionControl.Workload.RouteEvents (Tagged)
open Listener Origins

/-- The listener starts deliveries to webhooks of the workspace only, one to each that should hear
of an event, whatever the action sends to the bus. -/
def RespectsWorkspace (setting : Setting) (w : World) (workspaceId : Nat) (action : Action) : Prop :=
  ∀ event ∈ emitted setting w workspaceId action, Routed workspaceId event

/-! ### What is announced without its workspace -/

/-- The review approves a task of the workspace. -/
def approves (db : Db) (workspaceId : Nat) (json : Json) : Bool :=
  match parseReview json with
  | .ok review =>
    ((rowId review.taskId).bind (db.task? workspaceId)).isSome ∧ review.status = .approved ∧
      review.reviewer = "aegis"
  | .error _ => false

/-- The bulk update is a list of items that all may be written. -/
def commits (ctx : Context) (db : Db) (json : Json) : Bool :=
  match parseBulkUpdate json with
  | .ok items => items.all fun item => !BulkEvents.fails ctx db item
  | .error _ => false

/-- A visitor gets into the room, and the notification of it is stored. -/
def enters (rooms : DataRooms.Routes.World) : RoomRequest → Bool
  | .finishEnter id entering (.parsed data) sessionToken notified =>
    notified ∧ wrongPasscode entering.link data.passcode = false ∧
      (createVisitor (giving rooms id).tables ⟨entering.link.id, entering.room.id, data.email,
        data.name, data.company, some entering.ip, entering.userAgent⟩ sessionToken).toOption.isSome
  | _ => false

/-- The action announces a change without its workspace. -/
def untagged (setting : Setting) (w : World) (workspaceId : Nat) : Action → Bool
  | .operation (.task queries caller (.putTasks json)) =>
    commits (queries.context w workspaceId caller) w.tasks json
  | .operation (.task _ _ (.postReview json)) => approves w.tasks workspaceId json
  | .operation (.deleteTask _ taskId) => (w.tasks.task? workspaceId taskId).isSome
  | .operation (.wakeAgent target failure) =>
    ((agentAt w workspaceId target).bind fun agent => truthy agent.sessionKey).isSome ∧
      failure.isNone
  | .operation (.room request) =>
    concerns setting.labels workspaceId w.rooms request ∧ enters w.rooms request
  | .connect body _ => (w.agentNamed workspaceId body.agentName).isSome
  | .heartbeat target _ => (agentAt w workspaceId target).isSome
  | _ => false

/-! ### Tasks -/

section

variable {setting : Setting} {w : World} {workspaceId : Nat}

/-- A review tells the status of the task where it approves it. -/
theorem announced_postReview (data : Json) (ctx : Context) (hctx : ctx.user.workspaceId = workspaceId)
    (heffects : w.tasks.effects = []) (json : Json) :
    Announced workspaceId w (settle data workspaceId w (Tasks.Routes.postReview ctx w.tasks json).1)
      (approves w.tasks workspaceId json = true) := by
  subst hctx
  unfold Tasks.Routes.postReview approves
  dsimp only
  cases parseReview json with
  | error issues => exact (announced_settle _ data (by simp [heffects])).congr (by simp)
  | ok review =>
    dsimp only
    cases (rowId review.taskId).bind (w.tasks.task? ctx.user.workspaceId) with
    | none => exact (announced_settle _ data (by simp [heffects])).congr (by simp)
    | some task =>
      dsimp only
      by_cases happroved : review.status = .approved ∧ review.reviewer = "aegis"
      · rw [if_pos happroved]
        refine Announced.strayed (by simp [happroved]) ?_
        simp only [settle, Db.emit, Db.updateTask, heffects, List.nil_append, List.cons_append,
          List.foldl_cons, List.foldl_nil]
        refine Announced.then ?_ (announced_status _ _ _ _ _)
        exact Announced.of_start rfl (announced_effect _ _ rfl)
      · rw [if_neg happroved]
        refine (announced_settle _ data ?_).congr (by simp [happroved])
        simp [Db.emit, heffects, Tagged]

/-- A transaction of a bulk update keeps to the workspace, as far as it gets. -/
theorem announced_bulkTransaction (ctx : Context) (items : List BulkItem)
    (heffects : w.tasks.effects = []) :
    Announced ctx.user.workspaceId w (bulkTransaction ctx w items) False := by
  induction items generalizing w with
  | nil => exact Announced.silent rfl
  | cons item items ih =>
    cases hitem : Tasks.Routes.bulkItem ctx w.tasks item with
    | error message =>
      rw [bulkTransaction, hitem]
      exact Announced.silent rfl
    | ok db =>
      obtain ⟨data, hnext⟩ := BulkEvents.bulkTransaction_ok items hitem
      obtain ⟨description, hwritten⟩ := (BulkEvents.bulkItem_ok hitem).effects
      rw [hnext]
      refine Announced.then (announced_settle w data ?_) (ih ?_)
      · rw [hwritten, heffects]
        split <;> simp [Tagged]
      · rw [Operations.tasks_settle]
        rfl

theorem announced_statuses (items : List BulkItem) :
    Announced workspaceId w (items.foldl (fun w item => announceEffect .null workspaceId w
      (.broadcast "task.status_changed" item.id (some item.status))) w) (items ≠ []) := by
  induction items generalizing w with
  | nil => exact (Announced.silent rfl).congr (by simp)
  | cons item items ih =>
    rw [List.foldl_cons]
    refine ((announced_status _ _ _ _ _).trans (ih (w := announceEffect .null workspaceId w
      (.broadcast "task.status_changed" item.id (some item.status))))).congr ?_
    simp

/-- The schema refuses a list of no items. -/
theorem items_ne_nil {json : Json} {items : List BulkItem} (h : parseBulkUpdate json = .ok items) :
    items ≠ [] := by
  unfold parseBulkUpdate at h
  split at h
  · cases h
  · rename_i data hparsed
    obtain ⟨fields, -, -, hdata⟩ := parseObject_ok hparsed
    split at h
    · rename_i found hfound
      obtain rfl := Except.ok.inj h
      rw [hdata] at hfound
      have hread := parse_of_valueAt hfound
      have hlength := holds_of_array hread _ List.mem_cons_self
      rintro rfl
      simp at hlength
    · cases h

theorem announced_putTasks (ctx : Context) (heffects : w.tasks.effects = []) (json : Json) :
    Announced ctx.user.workspaceId w (putTasks ctx w json).1 (commits ctx w.tasks json = true) := by
  unfold commits
  cases hitems : parseBulkUpdate json with
  | error issues =>
    unfold putTasks
    simp only [hitems]
    exact (Announced.silent rfl).congr (by simp)
  | ok items =>
    have hattempted := announced_bulkTransaction ctx items heffects
    have hfails : (∃ message, bulkItems ctx w.tasks items = .error message) ↔
        items.any (BulkEvents.fails ctx w.tasks) = true := BulkEvents.bulkItems_error_iff items
    unfold putTasks Tasks.Routes.putTasks
    simp only [hitems]
    cases hbulk : bulkItems ctx w.tasks items with
    | error message =>
      rw [hbulk] at hfails
      obtain ⟨events, hgrows, hrouted⟩ := hattempted
      refine Announced.congr ⟨events, hgrows, hrouted⟩ ?_
      simpa using hfails
    | ok written =>
      rw [hbulk] at hfails
      refine (hattempted.then (announced_statuses items)).congr ?_
      have hne := items_ne_nil hitems
      simpa [hne] using hfails

theorem announced_serveTask (queries : TaskQueries) (caller : Caller) (request : Request)
    (heffects : w.tasks.effects = []) :
    Announced workspaceId w (serveTask queries w workspaceId caller request).1
      (untagged setting w workspaceId (.operation (.task queries caller request)) = true) := by
  have htagged : (∀ json, request ≠ .putTasks json) → (∀ json, request ≠ .postReview json) →
      ∀ effect ∈ (serve (queries.context w workspaceId caller) w.tasks request).1.effects,
        Tagged workspaceId effect :=
    RouteEvents.tagged_serve (queries.context w workspaceId caller) heffects
  cases request with
  | putTasks json => exact announced_putTasks (queries.context w workspaceId caller) heffects json
  | postReview json =>
    rw [RouteEvents.serveTask_fst _ _ _ _ (by simp)]
    exact announced_postReview _ (queries.context w workspaceId caller) rfl heffects json
  | postTask json | nimbusTask params | putTask taskId json
    | pollQueue agentParam agentHeader maxCapacityParam =>
    rw [RouteEvents.serveTask_fst _ _ _ _ (by simp)]
    exact (announced_settle w _ (htagged (by simp) (by simp))).kept rfl

theorem announced_deleteTask (caller : Caller) (taskId : Nat) :
    Announced workspaceId w (deleteTask w workspaceId caller taskId).1
      (untagged setting w workspaceId (.operation (.deleteTask caller taskId)) = true) := by
  unfold deleteTask untagged
  cases hrow : w.tasks.task? workspaceId taskId with
  | none => exact (Announced.silent rfl).kept (by simp [hrow])
  | some task =>
    refine Announced.strayed (by simp [hrow]) ?_
    refine Announced.then ?_ (announced_untagged _ rfl ?_ ?_)
    · exact Announced.of_start rfl (announced_logActivity _ _ _ _ _ _ _)
    · simp [isAgentError]
    · simp [getField, lookup]

/-! ### Agents -/

theorem announced_postAgent (caller : Caller) (body : NewAgent) (failure : Option String) :
    Announced workspaceId w (postAgent w workspaceId caller body failure).1 False := by
  unfold postAgent
  split
  · split
    · exact Announced.silent rfl
    · split
      · exact Announced.silent rfl
      · split
        · exact Announced.silent rfl
        · refine Announced.then ?_ (announced_unmapped _ rfl)
          exact Announced.of_start rfl (announced_logActivity _ _ _ _ _ _ _)
  · exact Announced.silent rfl

theorem announced_putAgents (name : String) (updates : AgentUpdates) :
    Announced workspaceId w (putAgents w workspaceId name updates).1 False := by
  unfold putAgents
  split
  · exact Announced.silent rfl
  · split
    · exact Announced.silent rfl
    · split
      · exact Announced.silent rfl
      · split
        · exact Announced.silent rfl
        · refine Announced.then ?_ (announced_unmapped _ rfl)
          split
          · split
            · exact Announced.silent rfl
            · exact Announced.of_start rfl (announced_logActivity _ _ _ _ _ _ _)
          · exact Announced.silent rfl

theorem announced_putAgent (caller : Caller) (target : Gateway.AgentSave.Target) (body : AgentSave)
    (failure : Option String) :
    Announced workspaceId w (putAgent w workspaceId caller target body failure).1 False := by
  unfold putAgent
  split
  · exact Announced.silent rfl
  · dsimp only
    split
    · exact Announced.silent rfl
    · split
      · exact Announced.silent rfl
      · refine Announced.then ?_ (announced_unmapped _ rfl)
        exact Announced.of_start rfl (announced_logActivity _ _ _ _ _ _ _)

theorem announced_deleteAgent (caller : Caller) (target : Gateway.AgentSave.Target) :
    Announced workspaceId w (deleteAgent w workspaceId caller target).1 False := by
  unfold deleteAgent
  split
  · exact Announced.silent rfl
  · refine Announced.then ?_ (announced_unmapped _ rfl)
    exact Announced.of_start rfl (announced_logActivity _ _ _ _ _ _ _)

/-- An agent that a request has found is one that its name finds. -/
theorem agentNamed_of_agentAt {target : Gateway.AgentSave.Target} {agent : Agent}
    (h : agentAt w workspaceId target = some agent) :
    (w.agentNamed workspaceId agent.name).isSome = true := by
  have hmatch := List.find?_some h
  simp only [decide_eq_true_eq] at hmatch
  rw [World.agentNamed, List.find?_isSome]
  exact ⟨agent, List.mem_of_find?_eq_some h, decide_eq_true ⟨rfl, hmatch.2⟩⟩

theorem announced_wakeAgent (target : Gateway.AgentSave.Target) (failure : Option String) :
    Announced workspaceId w (wakeAgent w workspaceId target failure).1
      (untagged setting w workspaceId (.operation (.wakeAgent target failure)) = true) := by
  unfold wakeAgent untagged
  cases hagent : agentAt w workspaceId target with
  | none => exact (Announced.silent rfl).kept (by simp [hagent])
  | some agent =>
    dsimp only
    cases hkey : truthy agent.sessionKey with
    | none => exact (Announced.silent rfl).kept (by simp [hagent, hkey])
    | some key =>
      cases failure with
      | some message => exact (Announced.silent rfl).kept (by simp)
      | none =>
        refine (announced_updateAgentStatus w (by simp) _ _).congr ?_
        simp [hagent, hkey, agentNamed_of_agentAt hagent]

theorem announced_heartbeat (target : Gateway.AgentSave.Target) (workItems : List String) :
    Announced workspaceId w (heartbeat w workspaceId target workItems).1
      (untagged setting w workspaceId (.heartbeat target workItems) = true) := by
  unfold heartbeat untagged
  cases hagent : agentAt w workspaceId target with
  | none => exact (Announced.silent rfl).kept (by simp [hagent])
  | some agent =>
    refine Announced.and_then ?_ (announced_logActivity _ _ _ _ _ _ _)
    refine (announced_updateAgentStatus w (by simp) _ _).congr ?_
    simp [hagent, agentNamed_of_agentAt hagent]

theorem announced_connect (body : ConnectBody) (connectionId : String) :
    Announced workspaceId w (connect w workspaceId body connectionId).1
      (untagged setting w workspaceId (.connect body connectionId) = true) := by
  have hagent : ∀ online agentId, connectAgent w workspaceId body = some (online, agentId) →
      Announced workspaceId w online ((w.agentNamed workspaceId body.agentName).isSome = true) := by
    intro online agentId h
    unfold connectAgent at h
    cases hnamed : w.agentNamed workspaceId body.agentName with
    | none =>
      simp only [hnamed] at h
      split at h
      · cases h
      · obtain ⟨rfl, -⟩ := Prod.mk.inj (Option.some.inj h)
        refine Announced.kept rfl (Announced.then ?_ (announced_unmapped _ rfl))
        exact Announced.of_start rfl (announced_logActivity _ _ _ _ _ _ _)
    | some agent =>
      simp only [hnamed, Option.some.injEq, Prod.mk.injEq] at h
      obtain ⟨rfl, -⟩ := h
      refine Announced.strayed rfl (Announced.of_start rfl (announced_untagged _ rfl ?_ ?_))
      · simp [isAgentError, getField, lookup]
      · simp [getField, lookup]
  unfold connect untagged
  cases hconnected : connectAgent w workspaceId body with
  | none =>
    refine (Announced.silent rfl).kept ?_
    unfold connectAgent at hconnected
    split at hconnected
    · rename_i hnamed
      simp [hnamed]
    · cases hconnected
  | some connected =>
    obtain ⟨online, agentId⟩ := connected
    refine Announced.and_then (hagent online agentId hconnected) ?_
    exact Announced.then (announced_logActivity _ _ _ _ _ _ _) (announced_unmapped _ rfl)

/-! ### Chat -/

theorem announced_message (messageId : Nat) :
    Announced workspaceId w (announceMessage w workspaceId messageId) False := by
  unfold announceMessage
  split
  · exact announced_unmapped _ rfl
  · exact Announced.silent rfl

theorem announced_postMessage (caller : Caller) (body : ChatBody) :
    Announced workspaceId w (postMessage w workspaceId caller body).1 False := by
  unfold postMessage
  dsimp only
  split
  · exact Announced.silent rfl
  · split
    · refine Announced.then ?_ (announced_message _)
      exact Announced.of_start rfl (announced_logActivity _ _ _ _ _ _ _)
    · split
      · refine Announced.of_end rfl (Announced.then ?_ (announced_createNotification _ _ _ _ _ _ _))
        exact Announced.of_start rfl (announced_logActivity _ _ _ _ _ _ _)
      · refine Announced.then (Announced.then ?_ (announced_createNotification _ _ _ _ _ _ _))
          (announced_message _)
        exact Announced.of_start rfl (announced_logActivity _ _ _ _ _ _ _)

theorem announced_chatReply (coordinator : String) (forwarded : Forwarding)
    (content messageType : String) (metadata : Json) :
    Announced workspaceId w (chatReply coordinator w forwarded content messageType metadata)
      False := by
  unfold chatReply
  split
  · exact Announced.of_start rfl (announced_unmapped _ rfl)
  · exact Announced.silent rfl

/-! ### Data rooms -/

theorem unmapped_eventBroadcasts (data : DataRooms.Rooms.NewEvent) :
    ∀ b ∈ DataRooms.Rooms.eventBroadcasts data, eventMap b.type = none := by
  unfold DataRooms.Rooms.eventBroadcasts
  split <;> simp [eventMap]

section

variable (order : FirstBy DataRooms.Rooms.LatestEvent) (t : DataRooms.Rooms.Tables)

theorem unmapped_serveDocument (link : DataRooms.Rooms.DataRoomLink)
    (room : DataRooms.Rooms.DataRoom) (visitor : DataRooms.Rooms.DataRoomVisitor) (docId : Nat)
    (download : Bool) (file : Option String) :
    ∀ b ∈ (DataRooms.Routes.serveDocument order t link room visitor docId download file).2.2,
      eventMap b.type = none := by
  unfold DataRooms.Routes.serveDocument
  split
  · simp
  · split
    · simp
    · split
      · simp
      · split
        · simp
        · dsimp only
          split
          · exact unmapped_eventBroadcasts _
          · simp

theorem unmapped_getFile (token : String) (docId : Nat) (cookie : Option String) (download : Bool)
    (file : Option String) :
    ∀ b ∈ (DataRooms.Routes.getFile order t token docId cookie download file).2.2,
      eventMap b.type = none := by
  unfold DataRooms.Routes.getFile
  split
  · simp
  · split
    · simp
    · split
      · simp
      · split
        · simp
        · split
          · simp
          · split
            · simp
            · split
              · simp
              · exact unmapped_serveDocument _ _ _ _ _ _ _ _

theorem unmapped_finishReport (reporting : DataRooms.Routes.Reporting)
    (body : DataRooms.Routes.Body DataRooms.Routes.RecordEvent) :
    ∀ b ∈ (DataRooms.Routes.finishReport order t reporting body).2.2, eventMap b.type = none := by
  unfold DataRooms.Routes.finishReport
  split
  · simp
  · simp
  · split
    · simp
    · split
      · simp
      · dsimp only
        split
        · exact unmapped_eventBroadcasts _
        · simp

end

/-- Broadcasts that webhooks do not hear of. -/
theorem announced_rooms {broadcasts : List Broadcast} (h : ∀ b ∈ broadcasts, eventMap b.type = none) :
    Announced workspaceId w (broadcasts.foldl (announceRoom workspaceId) w) False := by
  induction broadcasts generalizing w with
  | nil => exact Announced.silent rfl
  | cons b broadcasts ih =>
    have hfirst := h b List.mem_cons_self
    have hstored : (announceRoom workspaceId w b) = w.broadcast b.type b.data := by
      unfold announceRoom
      split
      · rename_i htype
        rw [htype] at hfirst
        cases hfirst
      · rfl
    rw [List.foldl_cons]
    refine Announced.then ?_ (ih fun other hother => h other (List.mem_cons_of_mem _ hother))
    rw [hstored]
    exact announced_unmapped _ hfirst

/-- A notification of a data room does not tell its workspace. -/
theorem announced_notification {entered notification : Broadcast}
    (hentered : eventMap entered.type = none) (htype : notification.type = .notificationCreated)
    (hworkspace : getField notification.data "workspace_id" = none) :
    Announced workspaceId w ([entered, notification].foldl (announceRoom workspaceId) w) True := by
  have hfirst : Announced workspaceId w ([entered].foldl (announceRoom workspaceId) w) False :=
    announced_rooms (by simp [hentered])
  rw [List.foldl_cons, List.foldl_cons, List.foldl_nil]
  rw [List.foldl_cons, List.foldl_nil] at hfirst
  refine hfirst.then ?_
  generalize announceRoom workspaceId w entered = middle
  obtain ⟨type, data⟩ := notification
  obtain rfl := htype
  refine Announced.of_start rfl (announced_untagged _ rfl ?_ hworkspace)
  simp [isAgentError]

/-- What the entry of a visitor announces. -/
theorem announced_enter (now : Nat) (room : DataRooms.Rooms.DataRoom)
    (visitor : DataRooms.Rooms.DataRoomVisitor) (notified : Bool) :
    Announced workspaceId w ((DataRooms.Routes.enterBroadcasts now room visitor notified).foldl
      (announceRoom workspaceId) w) (notified = true) := by
  unfold DataRooms.Routes.enterBroadcasts
  cases notified with
  | false => exact (announced_rooms (by simp [eventMap])).kept rfl
  | true =>
    refine Announced.strayed rfl (announced_notification rfl rfl ?_)
    simp [getField, lookup]

theorem announced_room (request : RoomRequest) {rooms : DataRooms.Routes.World}
    {reply : DataRooms.Routes.Reply} {broadcasts : List Broadcast}
    (hconcerns : concerns setting.labels workspaceId w.rooms request = true)
    (h : performRoom setting.order w.rooms request = some (rooms, reply, broadcasts)) :
    Announced workspaceId w (broadcasts.foldl (announceRoom workspaceId) { w with rooms := rooms })
      (enters w.rooms request = true) := by
  have hstart : w.clients = ({ w with rooms := rooms } : World).clients := rfl
  refine Announced.of_start hstart ?_
  cases request with
  | finishReport reporting body =>
    obtain ⟨-, -, rfl⟩ := by simpa only [performRoom, Option.some.injEq, Prod.mk.injEq] using h
    exact (announced_rooms (unmapped_finishReport _ _ _ _)).kept rfl
  | finishEnter id entering body sessionToken notified =>
    obtain ⟨-, -, rfl⟩ := by simpa only [performRoom, Option.some.injEq, Prod.mk.injEq] using h
    unfold DataRooms.Routes.finishEnter
    cases body with
    | notJson => exact (Announced.silent rfl).kept rfl
    | rejected => exact (Announced.silent rfl).kept rfl
    | parsed data =>
      dsimp only
      split
      · rename_i hwrong
        exact (Announced.silent rfl).kept (by simp [enters, hwrong])
      · rename_i hright
        split
        · rename_i error hcreated
          exact (Announced.silent rfl).kept (by simp [enters, hcreated, Except.toOption])
        · rename_i t' visitor hcreated
          refine (announced_enter _ _ _ _).congr ?_
          simp [enters, hcreated, hright, Except.toOption]
  | route id event =>
    refine Announced.kept rfl (announced_rooms ?_)
    simp only [performRoom, Option.map_eq_some_iff] at h
    obtain ⟨⟨rooms', reply', broadcasts'⟩, hperform, heq⟩ := h
    obtain ⟨-, -, rfl⟩ := by simpa only [Prod.mk.injEq] using heq
    cases event with
    | wait | finishEnter | finishReport => simp [concerns] at hconcerns
    | getFile token docId cookie download file =>
      obtain ⟨-, -, rfl⟩ := by
        simpa only [DataRooms.Routes.perform, Option.some.injEq, Prod.mk.injEq] using hperform
      exact unmapped_getFile _ _ _ _ _ _ _
    | createRoom | putRoom | removeRoom | addDocument | putDocument | removeDocument | postLink | putLink
      | removeLink | beginEnter | beginReport =>
      obtain ⟨-, -, rfl⟩ := by
        simpa only [DataRooms.Routes.perform, DataRooms.Routes.World.withTables, Option.some.injEq,
          Prod.mk.injEq] using hperform
      simp

/-! ### Actions -/

/-- An action whose stream it is. -/
def ofStream : Action → Bool
  | .operation (.subscribe _) => true
  | .operation (.cancel _) => true
  | _ => false

theorem announced_act {w' : World} {answer : Answer} {action : Action}
    (heffects : w.tasks.effects = []) (hstream : ofStream action = false)
    (h : act setting w workspaceId action = some (w', answer)) :
    Announced workspaceId w w' (untagged setting w workspaceId action = true) := by
  cases action with
  | connect body connectionId =>
    obtain rfl := congrArg Prod.fst (Option.some.inj h)
    exact announced_connect body connectionId
  | heartbeat target workItems =>
    obtain rfl := congrArg Prod.fst (Option.some.inj h)
    exact announced_heartbeat target workItems
  | operation operation =>
    simp only [act] at h
    cases operation with
    | subscribe client => cases hstream
    | cancel client => cases hstream
    | task queries caller request =>
      obtain rfl := congrArg Prod.fst (Option.some.inj h)
      exact announced_serveTask queries caller request heffects
    | deleteTask caller taskId =>
      obtain rfl := congrArg Prod.fst (Option.some.inj h)
      exact announced_deleteTask caller taskId
    | postAgent caller body failure =>
      obtain rfl := congrArg Prod.fst (Option.some.inj h)
      exact (announced_postAgent caller body failure).kept rfl
    | putAgents name updates =>
      obtain rfl := congrArg Prod.fst (Option.some.inj h)
      exact (announced_putAgents name updates).kept rfl
    | putAgent caller target body failure =>
      obtain rfl := congrArg Prod.fst (Option.some.inj h)
      exact (announced_putAgent caller target body failure).kept rfl
    | deleteAgent caller target =>
      obtain rfl := congrArg Prod.fst (Option.some.inj h)
      exact (announced_deleteAgent caller target).kept rfl
    | wakeAgent target failure =>
      obtain rfl := congrArg Prod.fst (Option.some.inj h)
      exact announced_wakeAgent target failure
    | postMessage caller body =>
      obtain rfl := congrArg Prod.fst (Option.some.inj h)
      exact (announced_postMessage caller body).kept rfl
    | chatReply forwarded content messageType metadata =>
      simp only [perform] at h
      split at h
      · obtain rfl := congrArg Prod.fst (Option.some.inj h)
        exact (announced_chatReply _ forwarded content messageType metadata).kept rfl
      · cases h
    | finishForward forwarded =>
      simp only [perform] at h
      split at h
      · rename_i hown
        obtain rfl := congrArg Prod.fst (Option.some.inj h)
        refine Announced.kept rfl ?_
        obtain rfl := hown.2
        exact Announced.of_start rfl (announced_message _)
      · cases h
    | patchMessage messageId read =>
      obtain rfl := congrArg Prod.fst (Option.some.inj h)
      refine Announced.kept rfl ?_
      unfold patchMessage
      split <;> exact Announced.silent rfl
    | readNotifications selection | deleteNotifications selection | markDelivered agent =>
      obtain rfl := congrArg Prod.fst (Option.some.inj h)
      exact (Announced.silent rfl).kept rfl
    | room request =>
      simp only [perform] at h
      split at h
      · rename_i hconcerns
        obtain ⟨⟨rooms, reply, broadcasts⟩, hperform, heq⟩ := Option.map_eq_some_iff.mp h
        obtain rfl := congrArg Prod.fst heq
        refine (announced_room request hconcerns hperform).congr ?_
        simp [untagged, hconcerns]
      · cases h

end

/-! ### What the listener hears -/

section

variable (setting : Setting) (w : World) (workspaceId : Nat) (action : Action)

theorem untagged_overheard : untagged setting (overheard w) workspaceId action =
    untagged setting w workspaceId action := by
  cases action with
  | connect body connectionId => rfl
  | heartbeat target workItems => rfl
  | operation operation =>
    cases operation with
    | task queries caller request => cases request <;> rfl
    | _ => rfl

/-- The listener is sent what every stream is sent. -/
theorem emitted_of_grows {w' : World} {answer : Answer} {events : List Broadcast}
    (h : act setting (overheard w) workspaceId action = some (w', answer))
    (hgrows : Grows (overheard w) w' events) : emitted setting w workspaceId action = events := by
  have hclients : w'.clients = [⟨0, 0, events⟩] := hgrows
  simp [emitted, h, hclients]

theorem emitted_ofStream (hstream : ofStream action = true) :
    emitted setting w workspaceId action = [] := by
  cases action with
  | connect body connectionId => cases hstream
  | heartbeat target workItems => cases hstream
  | operation operation =>
    cases operation with
    | subscribe client =>
      unfold emitted act perform
      by_cases hclient : 0 = client <;> simp [overheard, hclient]
    | cancel client =>
      unfold emitted act perform
      by_cases hclient : 0 = client ∧ 0 = workspaceId <;> simp [overheard, hclient]
    | _ => cases hstream

/-- What cannot happen announces nothing. -/
theorem untagged_of_none (h : act setting w workspaceId action = none) :
    untagged setting w workspaceId action = false := by
  cases action with
  | connect body connectionId => cases h
  | heartbeat target workItems => cases h
  | operation operation =>
    cases operation with
    | room request =>
      cases request with
      | finishEnter id entering body sessionToken notified =>
        simp only [act, perform, performRoom] at h
        split at h
        · cases h
        · rename_i hconcerns
          simp [untagged, hconcerns]
      | _ => simp [untagged, enters]
    | subscribe | cancel | chatReply | finishForward => rfl
    | _ => cases h

end

/-! ### A small installation -/

/-- The task is one of the second workspace. -/
def secondWorkspace : World :=
  { Operations.sampleState.world with
    tasks := { Tasks.Routes.sampleDb with
      tasks := [{ Tasks.Routes.sampleTask with workspaceId := 2 }] } }

def sampleSetting : Setting where
  coordinator := "coordinator"
  labels := ⟨fun _ => 1, fun _ => 1, fun _ => 1, fun _ => 1⟩
  order := DataRooms.LinkSessions.byTime

/-- `PUT /api/tasks` puts the task under review. -/
def putUnderReview : Action :=
  .operation (.task Operations.sampleQueries ⟨"operator", none⟩
    (.putTasks (.object [("tasks", .array [.object
      [("id", natural 1), ("status", .string "review")]])])))

/-- A webhook of the first workspace and one of the second, both for all events. -/
def twoHooks : Deliveries.World :=
  Deliveries.postWebhook (Deliveries.postWebhook (Deliveries.World.empty 0) Deliveries.hook 1)
    Deliveries.hook 2

end MissionControl.Webhooks.Routing
