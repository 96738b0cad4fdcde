import MissionControl.Events.Stores
import MissionControl.Foundations.Query
import MissionControl.Foundations.Transition

/-!
`POST /api/notifications/deliver`. A call selects a batch of notifications at once, sends them to
the sessions of their agents one after another, and waits for each command; other calls and the
writers of notifications go on in the meantime. The requests are those with a body whose filter is
a text and whose limit is an integer.
-/

set_option autoImplicit false
set_option relaxedAutoImplicit false

namespace MissionControl.Notifications.Delivery

open MissionControl.Foundations.JsText
open MissionControl.Foundations.Query
open MissionControl.Foundations.Schema (Json)
open MissionControl.Foundations.Transition (Machine)
open MissionControl.Events.Stores

structure Request where
  workspaceId : Nat
  agentFilter : Option String
  limit : Int
  dryRun : Bool
  deriving DecidableEq

/-- A row of the query: a notification with the session key of its agent. -/
structure Pending where
  notification : Notification
  sessionKey : Option String

structure DeliveryResult where
  notificationId : Nat
  recipient : String
  sessionKey : String
  deliveredAt : Option Nat
  status : String
  output : String
  deriving DecidableEq

structure DeliveryError where
  notificationId : Nat
  recipient : String
  error : String
  deriving DecidableEq

/-- What a call has come to so far, and in the end answers. -/
structure Report where
  totalProcessed : Nat
  deliveredCount : Nat
  errorCount : Nat
  deliveryResults : List DeliveryResult
  errors : List DeliveryError
  deriving DecidableEq

def Report.start (totalProcessed : Nat) : Report := ⟨totalProcessed, 0, 0, [], []⟩

def Report.fail (report : Report) (notification : Notification) (error : String) : Report :=
  { report with
    errorCount := report.errorCount + 1
    errors := report.errors ++ [⟨notification.id, notification.recipient, error⟩] }

def Report.deliver (report : Report) (result : DeliveryResult) : Report :=
  { report with
    deliveredCount := report.deliveredCount + 1
    deliveryResults := report.deliveryResults ++ [result] }

/-- A call that waits for the command that sends a notification. -/
structure Call where
  request : Request
  report : Report
  sending : Notification
  sessionKey : String
  message : String
  rest : List Pending

/-- `sent` lists the notifications that were sent with success, in the order of their sends. -/
structure State where
  world : World
  calls : List Call
  sent : List Nat
  replies : List Report

/-- No call is under way, and what is marked as delivered was sent before. -/
def State.init (world : World) : State where
  world := world
  calls := []
  sent := (world.notifications.filter fun n => n.deliveredAt.isSome).map Notification.id
  replies := []

/-! ### The batch -/

/-- The conditions of the query. -/
def Request.selects (request : Request) (n : Notification) : Bool :=
  n.deliveredAt = none ∧ n.workspaceId = request.workspaceId ∧
    ∀ name ∈ truthy request.agentFilter, n.recipient = name

/-- The join with the agents; names of agents are unique, so that no more than one row fits. -/
def pending (w : World) (n : Notification) : Pending :=
  ⟨n, (w.agentNamed n.workspaceId n.recipient).bind Agent.sessionKey⟩

/-- `ORDER BY n.created_at ASC`. -/
abbrev Older (a b : Pending) : Prop := a.notification.createdAt ≤ b.notification.createdAt

def undeliveredNotifications (order : OrderBy Older) (w : World) (request : Request) :
    List Pending :=
  page request.limit 0 (order.arrange ((w.notifications.filter request.selects).map (pending w)))

/-! ### Sending -/

/-- `formatNotificationMessage`; `toLocaleString` writes a time in seconds. -/
def formatNotificationMessage (toLocaleString : Nat → String) (n : Notification) : String :=
  "🔔 **" ++ n.title ++ "**\n\n" ++ n.message ++ "\n\n" ++
    (if n.type = "mention" then "📝 You were mentioned in a comment\n"
      else if n.type = "assignment" then "📋 You have been assigned a new task\n"
      else if n.type = "due_date" then "⏰ Task deadline approaching\n"
      else "") ++
    (match truthy n.sourceType, n.sourceId.filter (· ≠ 0) with
      | some sourceType, some sourceId =>
        "🔗 Related " ++ sourceType ++ " ID: " ++ toString sourceId ++ "\n"
      | _, _ => "") ++
    "⏰ " ++ toLocaleString n.createdAt

/-- How the command ends: with exit code 0 and its two outputs, or with an error. -/
inductive Outcome where
  | exited (stdout stderr : String)
  | failed (message : String)
  deriving DecidableEq

/-- `stderr.includes('error')`. -/
def complains (stderr : String) : Bool := "error".toList <:+: stderr.toList

/-- The error that the call notes, if the send is not a success. -/
def Outcome.error : Outcome → Option String
  | .exited _ stderr =>
    if complains stderr then some ("Command failed: OpenClaw error: " ++ stderr) else none
  | .failed message => some ("Command failed: " ++ message)

/-- The first 200 units of `stdout`. -/
def Outcome.output : Outcome → String
  | .exited stdout _ => String.ofList (takeUnits 200 stdout.toList)
  | .failed _ => ""

/-- `markDeliveredStmt`. -/
def markDelivered (w : World) (id workspaceId : Nat) : World :=
  { w with notifications := w.notifications.map fun n =>
      if n.id = id ∧ n.workspaceId = workspaceId then { n with deliveredAt := some w.now } else n }

def summarize (w : World) (request : Request) (report : Report) : World :=
  w.logActivity "notification_delivery_batch" "system" 0 "notification_daemon"
    ("Processed " ++ toString report.totalProcessed ++ " notifications: " ++
      toString report.deliveredCount ++ " delivered, " ++ toString report.errorCount ++ " failed")
    (some (.object
      [("total_processed", natural report.totalProcessed),
        ("delivered", natural report.deliveredCount), ("errors", natural report.errorCount),
        ("dry_run", .bool request.dryRun), ("agent_filter", text (truthy request.agentFilter))]))
    request.workspaceId

variable (toLocaleString : Nat → String)

/-- The loop of a call up to its next command, or to its end. -/
def proceed (s : State) (request : Request) (report : Report) : List Pending → State
  | [] =>
    { s with
      world := summarize s.world request report
      replies := s.replies ++ [report] }
  | p :: rest =>
    match truthy p.sessionKey with
    | none =>
      proceed s request (report.fail p.notification "Agent has no session key configured") rest
    | some sessionKey =>
      let message := formatNotificationMessage toLocaleString p.notification
      if request.dryRun then
        proceed s request (report.deliver
          ⟨p.notification.id, p.notification.recipient, sessionKey, none, "dry_run", message⟩) rest
      else
        { s with calls := s.calls ++
            [⟨request, report, p.notification, sessionKey, message, rest⟩] }

/-- What follows a send with success: the mark and the activity. -/
def delivered (s : State) (call : Call) : State :=
  { s with
    world := (markDelivered s.world call.sending.id call.request.workspaceId).logActivity
      "notification_delivered" "notification" call.sending.id "system"
      ("Notification delivered to " ++ call.sending.recipient)
      (some (.object
        [("notification_type", .string call.sending.type), ("session_key", .string call.sessionKey),
          ("title", .string call.sending.title)])) call.request.workspaceId
    sent := s.sent ++ [call.sending.id] }

/-- The end of the command that a call waits for. -/
def settle (s : State) (call : Call) (outcome : Outcome) : State :=
  match outcome.error with
  | some error =>
    proceed toLocaleString s call.request (call.report.fail call.sending error) call.rest
  | none =>
    proceed toLocaleString (delivered s call) call.request (call.report.deliver
      ⟨call.sending.id, call.sending.recipient, call.sessionKey, some s.world.now, "delivered",
        outcome.output⟩) call.rest

variable (order : OrderBy Older)

/-- The beginning of a call. An empty batch is answered at once. -/
def begin (s : State) (request : Request) : State :=
  match undeliveredNotifications order s.world request with
  | [] => { s with replies := s.replies ++ [.start 0] }
  | batch => proceed toLocaleString s request (.start batch.length) batch

/-- Besides the calls, the clock goes on and notifications are created. -/
inductive Event where
  | wait (milliseconds : Nat)
  | notify (recipient type title message : String) (sourceType : Option String)
      (sourceId : Option Nat) (workspaceId : Nat)
  | call (request : Request)
  | settle (i : Nat) (outcome : Outcome)

def step (s : State) : Event → Option State
  | .wait milliseconds =>
    some { s with world := { s.world with rooms := { s.world.rooms with
      tables := { s.world.rooms.tables with now := s.world.rooms.tables.now + milliseconds } } } }
  | .notify recipient type title message sourceType sourceId workspaceId =>
    some { s with world :=
      s.world.createNotification recipient type title message sourceType sourceId workspaceId }
  | .call request => some (begin toLocaleString order s request)
  | .settle i outcome =>
    (s.calls[i]?).map fun call =>
      settle toLocaleString { s with calls := s.calls.eraseIdx i } call outcome

def machine : Machine State Event := ⟨step toLocaleString order⟩

theorem sorts_older : Sorts Older := sorts_by_key fun p : Pending => p.notification.createdAt

/-! ### What a call has still to send -/

/-- The sends that a batch leads to: ids with the workspace that the mark names. -/
def targets (request : Request) (rows : List Pending) : List (Nat × Nat) :=
  if request.dryRun then []
  else (rows.filter fun p => (truthy p.sessionKey).isSome).map fun p =>
    (p.notification.id, request.workspaceId)

/-- The sends of a call, from the one that it waits for. -/
def Call.targets (call : Call) : List (Nat × Nat) :=
  (call.sending.id, call.request.workspaceId) :: Delivery.targets call.request call.rest

/-- The sends that the calls under way have still before them. -/
def State.targets (s : State) : List (Nat × Nat) := s.calls.flatMap Call.targets

section

variable {toLocaleString order}

@[simp]
theorem notifications_logActivity (w : World) (type entityType : String) (entityId : Nat)
    (actor description : String) (data : Option Json) (workspaceId : Nat) :
    (w.logActivity type entityType entityId actor description data workspaceId).notifications =
      w.notifications := rfl

@[simp]
theorem targets_nil (request : Request) : targets request [] = [] := by
  simp [targets]

theorem targets_cons_none {request : Request} {p : Pending} {rest : List Pending}
    (h : truthy p.sessionKey = none) : targets request (p :: rest) = targets request rest := by
  simp [targets, h]

theorem targets_cons_some {request : Request} {p : Pending} {rest : List Pending} {key : String}
    (h : truthy p.sessionKey = some key) (hlive : request.dryRun = false) :
    targets request (p :: rest) =
      (p.notification.id, request.workspaceId) :: targets request rest := by
  simp [targets, h, hlive]

/-- The loop counts no send and changes no row. -/
structure Kept (s s' : State) : Prop where
  notifications : s'.world.notifications = s.world.notifications
  next : s'.world.nextNotificationId = s.world.nextNotificationId
  agents : s'.world.agents = s.world.agents
  now : s'.world.now = s.world.now
  sent : s'.sent = s.sent

variable (toLocaleString) in
theorem proceed_kept (s : State) (request : Request) (report : Report) (rows : List Pending) :
    Kept s (proceed toLocaleString s request report rows) := by
  induction rows generalizing report with
  | nil => exact ⟨rfl, rfl, rfl, rfl, rfl⟩
  | cons p rest ih =>
    unfold proceed
    split
    · exact ih _
    · dsimp only
      split
      · exact ih _
      · exact ⟨rfl, rfl, rfl, rfl, rfl⟩

variable (toLocaleString) in
/-- After the loop the sends of its rows are those that lie before the call. -/
theorem proceed_targets (s : State) (request : Request) (report : Report) (rows : List Pending) :
    (proceed toLocaleString s request report rows).targets = s.targets ++ targets request rows := by
  induction rows generalizing report with
  | nil => simp [proceed, State.targets]
  | cons p rest ih =>
    unfold proceed
    split
    · rename_i hkey
      rw [ih, targets_cons_none hkey]
    · rename_i key hkey
      dsimp only
      split
      · rename_i hdry
        rw [ih]
        simp [targets, hdry]
      · rename_i hdry
        rw [targets_cons_some hkey (by simpa using hdry)]
        simp [State.targets, Call.targets]

end

/-! ### A small table -/

def sampleAgent : Agent where
  id := 1
  name := "worker"
  role := "developer"
  sessionKey := some "agent:worker:main"
  soulContent := none
  status := "idle"
  lastSeen := none
  lastActivity := none
  createdAt := 900
  updatedAt := 900
  config := []
  workspaceId := 1

def sampleNotification (id : Nat) (recipient : String) : Notification where
  id := id
  recipient := recipient
  type := "assignment"
  title := "Task Assigned"
  message := "You have been assigned to task: Write the report"
  sourceType := some "task"
  sourceId := some 1
  readAt := none
  deliveredAt := none
  createdAt := 1000 + id
  workspaceId := 1

/-- An agent with a session, and notifications for these recipients in this order. -/
def sampleWorld (recipients : List String) : World where
  tasks := Tasks.Routes.sampleDb
  rooms := .empty 1000000
  agents := [sampleAgent]
  messages := []
  activities := []
  notifications := recipients.mapIdx fun i recipient => sampleNotification (i + 1) recipient
  forwarding := []
  nextAgentId := 2
  nextMessageId := 1
  nextActivityId := 1
  nextNotificationId := recipients.length + 1
  clients := []

def sampleRequest (limit : Int) : Request := ⟨1, none, limit, false⟩

end MissionControl.Notifications.Delivery
