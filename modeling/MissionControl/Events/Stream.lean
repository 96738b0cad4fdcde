import MissionControl.Events.Producers

/-!
The chat, the notifications and the data rooms with what they announce, and the whole system:
requests in workspaces, the clock, and the clients of `GET /api/events`.
-/

set_option autoImplicit false
set_option relaxedAutoImplicit false

namespace MissionControl.Events.Stream

open MissionControl.Foundations.JsText
open MissionControl.Foundations.JsonValues (getField)
open MissionControl.Foundations.Query
open MissionControl.Foundations.Schema (Json)
open MissionControl.Foundations.Transition (Machine)
open MissionControl.Tasks.RouteSteps (Request)
open MissionControl.Gateway.AgentSave (Target)
open MissionControl.DataRooms.Rooms
open MissionControl.DataRooms.Routes (Body EnterRoom Entering RecordEvent Reporting Reply)
open MissionControl.Events.Bus
open MissionControl.Events.Stores
open MissionControl.Events.Producers

/-! ### Chat -/

/-- The body of `POST /api/chat/messages`. -/
structure ChatBody where
  recipient : Option String
  content : String
  messageType : Option String
  conversationId : Option String
  metadata : Option Json
  forward : Bool

def insertMessage (w : World) (message : Message) : World :=
  { w with messages := w.messages ++ [message], nextMessageId := w.nextMessageId + 1 }

/-- `content.substring(0, 200) + (content.length > 200 ? '...' : '')`. -/
def preview (content : String) : String :=
  String.ofList (takeUnits 200 content.toList) ++ if 200 < utf16Length content then "..." else ""

/-- The announcement at the end of the route, with the row as it is then. -/
def announceMessage (w : World) (workspaceId messageId : Nat) : World :=
  match w.messages.find? fun m => m.id = messageId ∧ m.workspaceId = workspaceId with
  | some message => w.broadcast .chatMessage message.payload
  | none => w

/-- `POST /api/chat/messages`. A message that is forwarded is announced when the gateway is
done with it. -/
def postMessage (w : World) (workspaceId : Nat) (caller : Caller) (body : ChatBody) :
    World × Answer :=
  let sender := (truthy caller.displayName).getD (orElse caller.username "system")
  let recipient := (truthy body.recipient).map trim
  let content := trim body.content
  let messageType := (truthy body.messageType).getD "text"
  let conversationId :=
    (truthy body.conversationId).getD ("conv_" ++ toString w.rooms.tables.now)
  if content = "" then (w, .error 400 "\"content\" is required")
  else
    let message : Message :=
      { id := w.nextMessageId
        conversationId := conversationId
        fromAgent := sender
        toAgent := recipient
        content := content
        messageType := messageType
        metadata := body.metadata
        readAt := none
        createdAt := w.now
        workspaceId := workspaceId }
    let logged := (insertMessage w message).logActivity "chat_message" "message" message.id sender
      ("Sent " ++ messageType ++ " message" ++
        (match truthy recipient with
          | some name => " to " ++ name
          | none => " (broadcast)"))
      (some (.object [("conversation_id", .string conversationId), ("to", text recipient),
        ("message_type", .string messageType)])) workspaceId
    match truthy recipient with
    | none => (announceMessage logged workspaceId message.id, .done)
    | some name =>
      let notified := logged.createNotification name "chat_message" ("Message from " ++ sender)
        (preview content) (some "message") (some message.id) workspaceId
      if body.forward then
        ({ notified with forwarding := notified.forwarding ++ [⟨message, sender⟩] }, .done)
      else (announceMessage notified workspaceId message.id, .done)

/-- `createChatReply`, in the thread of a message that is being forwarded to the coordinator. -/
def chatReply (coordinator : String) (w : World) (forwarded : Forwarding)
    (content messageType : String) (metadata : Json) : World :=
  if forwarded.message.conversationId.startsWith "coord:" then
    let reply : Message :=
      { id := w.nextMessageId
        conversationId := forwarded.message.conversationId
        fromAgent := coordinator
        toAgent := some forwarded.sender
        content := content
        messageType := messageType
        metadata := some metadata
        readAt := none
        createdAt := w.now
        workspaceId := forwarded.message.workspaceId }
    (insertMessage w reply).broadcast .chatMessage reply.payload
  else w

/-- The end of a forwarding. -/
def finishForward (w : World) (forwarded : Forwarding) : World :=
  announceMessage { w with forwarding := w.forwarding.filter fun f =>
    f.message.id ≠ forwarded.message.id } forwarded.message.workspaceId forwarded.message.id

/-- `PATCH /api/chat/messages/[id]`. -/
def patchMessage (w : World) (workspaceId messageId : Nat) (read : Bool) : World × Answer :=
  if w.messages.any fun m => m.id = messageId ∧ m.workspaceId = workspaceId then
    ({ w with messages := w.messages.map fun m =>
        if read ∧ m.id = messageId ∧ m.workspaceId = workspaceId then
          { m with readAt := some w.now }
        else m }, .done)
  else (w, .error 404 "Message not found")

/-! ### Notifications -/

/-- The notifications that a request names. -/
inductive Selection where
  | listed (ids : List Nat)
  | recipient (name : String)
  | older (name : String) (time : Nat)

def Selection.selects (selection : Selection) (notification : Notification) : Bool :=
  match selection with
  | .listed ids => notification.id ∈ ids
  | .recipient name => notification.recipient = name
  | .older name time => notification.recipient = name ∧ notification.createdAt < time

/-- `PUT /api/notifications`. -/
def readNotifications (w : World) (workspaceId : Nat) (selection : Selection) : World :=
  { w with notifications := w.notifications.map fun n =>
      if selection.selects n ∧ n.readAt = none ∧ n.workspaceId = workspaceId then
        { n with readAt := some w.now }
      else n }

/-- `DELETE /api/notifications`. -/
def deleteNotifications (w : World) (workspaceId : Nat) (selection : Selection) : World :=
  { w with notifications := w.notifications.filter fun n =>
      ¬ (selection.selects n ∧ n.workspaceId = workspaceId) }

/-- `POST /api/notifications`. -/
def markDelivered (w : World) (workspaceId : Nat) (agent : String) : World :=
  { w with notifications := w.notifications.map fun n =>
      if n.recipient = agent ∧ n.deliveredAt = none ∧ n.workspaceId = workspaceId then
        { n with deliveredAt := some w.now }
      else n }

/-! ### Data rooms -/

/-- Which workspace each id belongs to. Which unused id a new row gets is the database's choice,
and an id is given once, so that each has one workspace for good. -/
structure Labels where
  room : Nat → Nat
  document : Nat → Nat
  link : Nat → Nat
  visitor : Nat → Nat

/-- A request of the data rooms. One that inserts a row comes with the id of the row, and a
suspended one is named by what it has read. -/
inductive RoomRequest where
  | route (id : Nat) (event : DataRooms.Routes.Event)
  | finishEnter (id : Nat) (entering : Entering) (body : Body EnterRoom) (sessionToken : String)
      (notified : Bool)
  | finishReport (reporting : Reporting) (body : Body RecordEvent)

/-- The link that a token leads to, if any, is one of the workspace. -/
def leadsInto (labels : Labels) (workspaceId : Nat) (t : Tables) (token : String) : Bool :=
  (getLinkByToken t token).all fun link => labels.room link.roomId = workspaceId

/-- The request is about a room of the workspace. -/
def concerns (labels : Labels) (workspaceId : Nat) (rooms : DataRooms.Routes.World) :
    RoomRequest → Bool
  | .route id event =>
    match event with
    | .wait _ | .finishEnter _ _ _ _ | .finishReport _ _ => false
    | .createRoom owner _ _ =>
      owner = workspaceId ∧ labels.room id = workspaceId ∧ rooms.tables.rooms.all (·.id ≠ id)
    | .putRoom roomId _ | .removeRoom roomId | .putDocument roomId _ _ | .removeDocument roomId _
      | .putLink roomId _ _ | .removeLink roomId _ => labels.room roomId = workspaceId
    | .addDocument roomId _ _ _ _ =>
      labels.room roomId = workspaceId ∧ labels.document id = workspaceId ∧
        rooms.tables.documents.all (·.id ≠ id)
    | .postLink roomId _ _ _ _ =>
      labels.room roomId = workspaceId ∧ labels.link id = workspaceId ∧
        rooms.tables.links.all (·.id ≠ id)
    | .beginEnter token _ _ | .getFile token _ _ _ _ | .beginReport token _ =>
      leadsInto labels workspaceId rooms.tables token
  | .finishEnter id entering _ _ _ =>
    entering ∈ rooms.entering ∧ labels.room entering.room.id = workspaceId ∧
      labels.visitor id = workspaceId ∧ rooms.tables.visitors.all (·.id ≠ id)
  | .finishReport reporting _ =>
    reporting ∈ rooms.reporting ∧ labels.room reporting.room.id = workspaceId

/-- The tables that give the next row the id. -/
def giving (rooms : DataRooms.Routes.World) (id : Nat) : DataRooms.Routes.World :=
  { rooms with
    tables :=
      { rooms.tables with
        nextRoomId := id
        nextDocumentId := id
        nextLinkId := id
        nextVisitorId := id } }

/-- A request that the limiter of the entries has let through, or that it does not ask about. -/
def performRoom (order : FirstBy LatestEvent) (rooms : DataRooms.Routes.World) :
    RoomRequest → Option (DataRooms.Routes.World × Reply × List Broadcast)
  | .route id event =>
    (DataRooms.Routes.perform order { giving rooms id with rateLimitMap := [] } event).map
      fun (rooms, reply, broadcasts) => ({ rooms with rateLimitMap := [] }, reply, broadcasts)
  | .finishEnter id entering body sessionToken notified =>
    let (t, reply, broadcasts) :=
      DataRooms.Routes.finishEnter (giving rooms id).tables entering body sessionToken notified
    some ({ rooms with tables := t, entering := rooms.entering.erase entering }, reply, broadcasts)
  | .finishReport reporting body =>
    let (t, reply, broadcasts) :=
      DataRooms.Routes.finishReport order rooms.tables reporting body
    some ({ rooms with tables := t, reporting := rooms.reporting.erase reporting }, reply,
      broadcasts)

def textAt (data : Json) (key : String) : String :=
  match getField data key with
  | some (.string value) => value
  | _ => ""

def naturalAt (data : Json) (key : String) : Option Nat :=
  match getField data key with
  | some (.number value) => some value.num.toNat
  | _ => none

/-- A broadcast of the data rooms. The notification of an entry is a row as well. -/
def announceRoom (workspaceId : Nat) (w : World) (b : Broadcast) : World :=
  let stored := match b.type with
    | .notificationCreated => w.insertNotification (w.newNotification (textAt b.data "recipient")
        (textAt b.data "type") (textAt b.data "title") (textAt b.data "message")
        (some (textAt b.data "source_type")) (naturalAt b.data "source_id") workspaceId)
    | _ => w
  stored.broadcast b.type b.data

/-! ### The system -/

/-- A request inside a workspace. -/
inductive Operation where
  | subscribe (client : Nat)
  | cancel (client : Nat)
  | task (queries : TaskQueries) (caller : Caller) (request : Request)
  | deleteTask (caller : Caller) (taskId : Nat)
  | postAgent (caller : Caller) (body : NewAgent) (failure : Option String)
  | putAgents (name : String) (updates : AgentUpdates)
  | putAgent (caller : Caller) (target : Target) (body : AgentSave) (failure : Option String)
  | deleteAgent (caller : Caller) (target : Target)
  | wakeAgent (target : Target) (failure : Option String)
  | postMessage (caller : Caller) (body : ChatBody)
  | chatReply (forwarded : Forwarding) (content messageType : String) (metadata : Json)
  | finishForward (forwarded : Forwarding)
  | patchMessage (messageId : Nat) (read : Bool)
  | readNotifications (selection : Selection)
  | deleteNotifications (selection : Selection)
  | markDelivered (agent : String)
  | room (request : RoomRequest)

inductive Event where
  | wait (milliseconds : Nat)
  | inside (workspaceId : Nat) (operation : Operation)

/-- What the system is configured with, and how the database orders events of one time. -/
structure Setting where
  coordinator : String
  labels : Labels
  order : FirstBy LatestEvent

variable (setting : Setting)

def perform (w : World) (workspaceId : Nat) : Operation → Option (World × Answer)
  | .subscribe client =>
    if w.clients.any fun c => c.id = client then none
    else some ({ w with clients := w.clients ++ [⟨client, workspaceId, []⟩] }, .done)
  | .cancel client =>
    some ({ w with clients := w.clients.filter fun c =>
      ¬ (c.id = client ∧ c.workspaceId = workspaceId) }, .done)
  | .task queries caller request => some (serveTask queries w workspaceId caller request)
  | .deleteTask caller taskId => some (deleteTask w workspaceId caller taskId)
  | .postAgent caller body failure => some (postAgent w workspaceId caller body failure)
  | .putAgents name updates => some (putAgents w workspaceId name updates)
  | .putAgent caller target body failure =>
    some (putAgent w workspaceId caller target body failure)
  | .deleteAgent caller target => some (deleteAgent w workspaceId caller target)
  | .wakeAgent target failure => some (wakeAgent w workspaceId target failure)
  | .postMessage caller body => some (postMessage w workspaceId caller body)
  | .chatReply forwarded content messageType metadata =>
    if w.forwarding.any (fun f => f.message.id = forwarded.message.id) ∧
        forwarded.message.workspaceId = workspaceId then
      some (chatReply setting.coordinator w forwarded content messageType metadata, .done)
    else none
  | .finishForward forwarded =>
    if w.forwarding.any (fun f => f.message.id = forwarded.message.id) ∧
        forwarded.message.workspaceId = workspaceId then
      some (finishForward w forwarded, .done)
    else none
  | .patchMessage messageId read => some (patchMessage w workspaceId messageId read)
  | .readNotifications selection => some (readNotifications w workspaceId selection, .done)
  | .deleteNotifications selection => some (deleteNotifications w workspaceId selection, .done)
  | .markDelivered agent => some (markDelivered w workspaceId agent, .done)
  | .room request =>
    if concerns setting.labels workspaceId w.rooms request then
      (performRoom setting.order w.rooms request).map fun (rooms, reply, broadcasts) =>
        (broadcasts.foldl (announceRoom workspaceId) { w with rooms := rooms },
          .room reply)
    else none

def machine : Machine World Event where
  step w
    | .wait milliseconds =>
      some { w with rooms := { w.rooms with
        tables := { w.rooms.tables with now := w.rooms.tables.now + milliseconds } } }
    | .inside workspaceId operation => (perform setting w workspaceId operation).map Prod.fst

end MissionControl.Events.Stream
