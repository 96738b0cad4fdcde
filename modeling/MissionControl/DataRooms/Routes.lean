import MissionControl.DataRooms.Rooms
import MissionControl.Foundations.Transition

/-!
The routes of the data rooms. Those for administrators manage rooms, documents and links; those
for visitors enter a room, read a document and report what a visitor looks at. The two visitor
routes that have a body are suspended until it has arrived, and act on what they read before.
An administrator's route changes the tables in one go once its body is there.
-/

set_option autoImplicit false
set_option relaxedAutoImplicit false

namespace MissionControl.DataRooms.Routes

open MissionControl.Foundations.JsText
open MissionControl.Foundations.Query
open MissionControl.Foundations.Schema (Json)
open MissionControl.Foundations.Transition (Machine)
open MissionControl.Events.Bus (Broadcast)
open Rooms

/-! ### Requests -/

inductive Reply where
  | done
  | pending
  /-- The visitor who has come in, and the session cookie that is set. -/
  | entered (visitorId : Nat) (email name cookie : String)
  | served (document : DataRoomDocument) (attachment : Bool) (content : String)
  | recorded (eventId : Nat)
  | refused (status : Nat) (error : String)
  deriving DecidableEq

/-- The body of a request: no JSON, refused by its schema, or what the schema makes of it. -/
inductive Body (α : Type) where
  | notJson
  | rejected
  | parsed (data : α)
  deriving DecidableEq

/-- What `enterRoomSchema` makes of a body. -/
structure EnterRoom where
  email : String
  name : String
  company : String
  passcode : Option String
  deriving DecidableEq

/-- What `recordEventSchema` makes of a body. -/
structure RecordEvent where
  documentId : Nat
  eventType : EventKind
  pageNumber : Option Nat
  durationSeconds : Option Rat
  deriving DecidableEq

structure RateLimitEntry where
  count : Nat
  resetAt : Nat
  deriving DecidableEq

/-- A request to enter that waits for its body. -/
structure Entering where
  link : DataRoomLink
  room : DataRoom
  ip : String
  userAgent : Option String
  deriving DecidableEq

/-- A report that waits for its body; `token` is the one in its path. -/
structure Reporting where
  token : String
  room : DataRoom
  visitor : DataRoomVisitor
  deriving DecidableEq

structure World where
  tables : Tables
  rateLimitMap : List (String × RateLimitEntry)
  entering : List Entering
  reporting : List Reporting
  deriving DecidableEq

def World.empty (now : Nat) : World := ⟨.empty now, [], [], []⟩

/-! ### Entering -/

def rateLimitEntry (limits : List (String × RateLimitEntry)) (ip : String) :
    Option RateLimitEntry :=
  (limits.find? fun entry => entry.1 = ip).map Prod.snd

/-- `rateLimitMap.set(ip, entry)`. -/
def setRateLimitEntry (limits : List (String × RateLimitEntry)) (ip : String)
    (entry : RateLimitEntry) : List (String × RateLimitEntry) :=
  limits.filter (fun e => e.1 ≠ ip) ++ [(ip, entry)]

/-- `checkRateLimit`. -/
def checkRateLimit (limits : List (String × RateLimitEntry)) (now : Nat) (ip : String) :
    List (String × RateLimitEntry) × Bool :=
  match rateLimitEntry limits ip with
  | none => (setRateLimitEntry limits ip ⟨1, now + 60000⟩, true)
  | some entry =>
    if entry.resetAt < now then (setRateLimitEntry limits ip ⟨1, now + 60000⟩, true)
    else
      (setRateLimitEntry limits ip { entry with count := entry.count + 1 }, entry.count + 1 ≤ 10)

/-- `headers.get('x-forwarded-for')?.split(',')[0]?.trim() || 'unknown'`. -/
def clientIp (forwardedFor : Option String) : String :=
  orElse (trim (String.ofList ((forwardedFor.getD "").toList.takeWhile (· ≠ ',')))) "unknown"

/-- The checks of a link that come before the body. -/
def openRoom (t : Tables) (token : String) : Except Reply (DataRoomLink × DataRoom) :=
  match getLinkByToken t token with
  | none => .error (.refused 404 "Link not found or inactive")
  | some link =>
    if link.isActive = false then .error (.refused 404 "Link not found or inactive")
    else if isExpired t link then .error (.refused 410 "This link has expired")
    else
      match getRoom t link.roomId with
      | none => .error (.refused 404 "Room not found")
      | some room =>
        if room.status = .archived then .error (.refused 404 "Room not found")
        else .ok (link, room)

/-- `POST /api/room/[token]/enter`, until it awaits its body. -/
def beginEnter (w : World) (token : String) (forwardedFor userAgent : Option String) :
    World × Reply :=
  let ip := clientIp forwardedFor
  let (limits, allowed) := checkRateLimit w.rateLimitMap w.tables.now ip
  let w := { w with rateLimitMap := limits }
  if allowed = false then (w, .refused 429 "Too many requests")
  else
    match openRoom w.tables token with
    | .error reply => (w, reply)
    | .ok (link, room) => ({ w with entering := w.entering ++ [⟨link, room, ip, userAgent⟩] }, .pending)

/-- `link.passcode && parsed.data.passcode !== link.passcode`. -/
def wrongPasscode (link : DataRoomLink) (passcode : Option String) : Bool :=
  truthy link.passcode ≠ none ∧ passcode ≠ link.passcode

/-- What a visitor's entry announces; the second event is left out when the notification
cannot be stored. -/
def enterBroadcasts (now : Nat) (room : DataRoom) (visitor : DataRoomVisitor) (notified : Bool) :
    List Broadcast :=
  let company := if visitor.company = "" then "" else " from " ++ visitor.company
  let message :=
    orElse visitor.name visitor.email ++ company ++ " entered data room \"" ++ room.name ++ "\""
  let entered : Broadcast := ⟨.dataroomVisitorEntered, .object
    [("room_id", .number room.id), ("room_name", .string room.name),
      ("visitor_id", .number visitor.id), ("visitor_email", .string visitor.email),
      ("visitor_name", .string visitor.name), ("visitor_company", .string visitor.company)]⟩
  let notification : Broadcast := ⟨.notificationCreated, .object
    [("recipient", .string "admin"), ("type", .string "dataroom"),
      ("title", .string ("New visitor: " ++ visitor.email)), ("message", .string message),
      ("source_type", .string "data_room"), ("source_id", .number room.id),
      ("created_at", .number (seconds now))]⟩
  if notified then [entered, notification] else [entered]

/-- The rest of the route, with the session token that it draws. -/
def finishEnter (t : Tables) (e : Entering) (body : Body EnterRoom) (sessionToken : String)
    (notified : Bool) : Tables × Reply × List Broadcast :=
  match body with
  | .notJson => (t, .refused 400 "Invalid JSON", [])
  | .rejected => (t, .refused 400 "Validation failed", [])
  | .parsed data =>
    if wrongPasscode e.link data.passcode then (t, .refused 403 "Invalid passcode", [])
    else
      match createVisitor t ⟨e.link.id, e.room.id, data.email, data.name, data.company, some e.ip,
        e.userAgent⟩ sessionToken with
      | .error error => (t, .refused 500 error, [])
      | .ok (t', visitor) =>
        (t', .entered visitor.id visitor.email visitor.name visitor.sessionToken,
          enterBroadcasts t.now e.room visitor notified)

/-! ### Documents -/

/-- The file route, from the visitor on. -/
def serveDocument (order : FirstBy LatestEvent) (t : Tables) (link : DataRoomLink)
    (room : DataRoom) (visitor : DataRoomVisitor) (docId : Nat) (download : Bool)
    (file : Option String) : Tables × Reply × List Broadcast :=
  match getDocument t docId with
  | none => (t, .refused 404 "Document not found", [])
  | some doc =>
    if doc.roomId ≠ room.id then (t, .refused 404 "Document not found", [])
    else if download = true ∧ ¬ (link.allowDownload ∨ doc.allowDownload) then
      (t, .refused 403 "Downloads not allowed", [])
    else
      match file with
      | none => (t, .refused 404 "File not found", [])
      | some content =>
        let event : NewEvent :=
          ⟨visitor.id, room.id, doc.id, if download then .docDownloaded else .docViewed, none, none⟩
        match recordEvent order t event with
        | (t', some _) => (t', .served doc download content, eventBroadcasts event)
        | (t', none) => (t', .refused 404 "File not found", [])

/-- `GET /api/room/[token]/documents/[docId]/file`. `file` is what the file of the document
holds, unless it cannot be read. -/
def getFile (order : FirstBy LatestEvent) (t : Tables) (token : String) (docId : Nat)
    (cookie : Option String) (download : Bool) (file : Option String) :
    Tables × Reply × List Broadcast :=
  match getLinkByToken t token with
  | none => (t, .refused 404 "Link not found", [])
  | some link =>
    if link.isActive = false then (t, .refused 404 "Link not found", [])
    else if isExpired t link then (t, .refused 410 "Link expired", [])
    else
      match getRoom t link.roomId with
      | none => (t, .refused 404 "Room not found", [])
      | some room =>
        if room.status = .archived then (t, .refused 404 "Room not found", [])
        else
          match truthy cookie with
          | none => (t, .refused 401 "Session required", [])
          | some sessionToken =>
            match validateVisitorSession t sessionToken room.id with
            | none => (t, .refused 401 "Invalid session", [])
            | some visitor => serveDocument order t link room visitor docId download file

/-! ### Reports -/

/-- `POST /api/room/[token]/events`, until it awaits its body. -/
def beginReport (w : World) (token : String) (cookie : Option String) : World × Reply :=
  match getLinkByToken w.tables token with
  | none => (w, .refused 404 "Link not found")
  | some link =>
    if link.isActive = false then (w, .refused 404 "Link not found")
    else
      match getRoom w.tables link.roomId with
      | none => (w, .refused 404 "Room not found")
      | some room =>
        match truthy cookie with
        | none => (w, .refused 401 "Session required")
        | some sessionToken =>
          match validateVisitorSession w.tables sessionToken room.id with
          | none => (w, .refused 401 "Invalid session")
          | some visitor =>
            ({ w with reporting := w.reporting ++ [⟨token, room, visitor⟩] }, .pending)

/-- The rest of the route. -/
def finishReport (order : FirstBy LatestEvent) (t : Tables) (r : Reporting)
    (body : Body RecordEvent) : Tables × Reply × List Broadcast :=
  match body with
  | .notJson => (t, .refused 400 "Invalid JSON", [])
  | .rejected => (t, .refused 400 "Validation failed", [])
  | .parsed data =>
    match getDocument t data.documentId with
    | none => (t, .refused 404 "Document not found", [])
    | some doc =>
      if doc.roomId ≠ r.room.id then (t, .refused 404 "Document not found", [])
      else
        let event : NewEvent := ⟨r.visitor.id, r.room.id, data.documentId, data.eventType,
          data.pageNumber, data.durationSeconds⟩
        match recordEvent order t event with
        | (t', some eventId) => (t', .recorded eventId, eventBroadcasts event)
        | (t', none) => (t', .refused 500 "FOREIGN KEY constraint failed", [])

/-! ### Administration -/

/-- The answer of a handler of the library that may throw. -/
def caught (t : Tables) (failed : String → Reply) : Except String Tables → Tables × Reply
  | .ok t' => (t', .done)
  | .error e => (t, failed e)

def putRoom (t : Tables) (id : Nat) (updates : RoomUpdates) : Tables × Reply :=
  match getRoom t id with
  | none => (t, .refused 404 "Room not found")
  | some _ => caught t (.refused 500) (updateRoom t id updates)

def removeRoom (t : Tables) (id : Nat) : Tables × Reply :=
  match getRoom t id with
  | none => (t, .refused 404 "Room not found")
  | some _ => (deleteRoom t id, .done)

def postLink (t : Tables) (roomId : Nat) (passcode : Option String) (allowDownload : Bool)
    (expiresAt : Option Nat) (token : String) : Tables × Reply :=
  match getRoom t roomId with
  | none => (t, .refused 404 "Room not found")
  | some _ =>
    caught t (.refused 500) (createLink t roomId passcode allowDownload expiresAt token)

/-- The routes of one link: nothing happens unless the link leads into the room. -/
def withLink (t : Tables) (roomId linkId : Nat) (change : Tables) : Tables × Reply :=
  match getRoom t roomId with
  | none => (t, .refused 404 "Room not found")
  | some _ =>
    if t.links.any fun l => l.id = linkId ∧ l.roomId = roomId then (change, .done)
    else (t, .refused 404 "Link not found")

/-- The routes of one document: nothing happens unless the document is in the room. -/
def withDocument (t : Tables) (roomId docId : Nat) (change : Tables) : Tables × Reply :=
  match getRoom t roomId, getDocument t docId with
  | none, _ => (t, .refused 404 "Room not found")
  | some _, none => (t, .refused 404 "Document not found")
  | some _, some doc =>
    if doc.roomId ≠ roomId then (t, .refused 404 "Document not found") else (change, .done)

/-! ### Histories -/

inductive Event where
  | wait (milliseconds : Nat)
  | createRoom (workspaceId : Nat) (name slug : String)
  | putRoom (id : Nat) (updates : RoomUpdates)
  | removeRoom (id : Nat)
  | addDocument (roomId : Nat) (filename originalName mimeType : String) (allowDownload : Bool)
  | putDocument (roomId docId : Nat) (allowDownload : Option Bool)
  | removeDocument (roomId docId : Nat)
  | postLink (roomId : Nat) (passcode : Option String) (allowDownload : Bool)
      (expiresAt : Option Nat) (token : String)
  | putLink (roomId linkId : Nat) (updates : LinkUpdates)
  | removeLink (roomId linkId : Nat)
  | beginEnter (token : String) (forwardedFor userAgent : Option String)
  | finishEnter (i : Nat) (body : Body EnterRoom) (sessionToken : String) (notified : Bool)
  | getFile (token : String) (docId : Nat) (cookie : Option String) (download : Bool)
      (file : Option String)
  | beginReport (token : String) (cookie : Option String)
  | finishReport (i : Nat) (body : Body RecordEvent)
  deriving DecidableEq

def World.withTables (w : World) : Tables × Reply → World × Reply × List Broadcast
  | (t, reply) => ({ w with tables := t }, reply, [])

/-- What an event does, is answered with and announces. Of the suspended requests, `i` counts
those that began earlier. -/
def perform (order : FirstBy LatestEvent) (w : World) :
    Event → Option (World × Reply × List Broadcast)
  | .wait milliseconds =>
    some ({ w with tables := { w.tables with now := w.tables.now + milliseconds } }, .done, [])
  | .createRoom workspaceId name slug =>
    some (w.withTables (caught w.tables (fun _ => .refused 409 "A room with that slug already exists")
      (Rooms.createRoom w.tables workspaceId name slug)))
  | .putRoom id updates => some (w.withTables (putRoom w.tables id updates))
  | .removeRoom id => some (w.withTables (removeRoom w.tables id))
  | .addDocument roomId filename originalName mimeType allowDownload =>
    some (w.withTables (match getRoom w.tables roomId with
      | none => (w.tables, .refused 404 "Room not found")
      | some _ =>
        (Rooms.addDocument w.tables roomId filename originalName mimeType allowDownload, .done)))
  | .putDocument roomId docId allowDownload =>
    some (w.withTables (withDocument w.tables roomId docId
      (updateDocument w.tables docId allowDownload)))
  | .removeDocument roomId docId =>
    some (w.withTables (withDocument w.tables roomId docId (deleteDocument w.tables docId)))
  | .postLink roomId passcode allowDownload expiresAt token =>
    some (w.withTables (postLink w.tables roomId passcode allowDownload expiresAt token))
  | .putLink roomId linkId updates =>
    some (w.withTables (withLink w.tables roomId linkId (updateLink w.tables linkId updates)))
  | .removeLink roomId linkId =>
    some (w.withTables (withLink w.tables roomId linkId (deleteLink w.tables linkId)))
  | .beginEnter token forwardedFor userAgent =>
    let (w', reply) := beginEnter w token forwardedFor userAgent
    some (w', reply, [])
  | .finishEnter i body sessionToken notified =>
    w.entering[i]?.map fun e =>
      let (t, reply, broadcasts) := finishEnter w.tables e body sessionToken notified
      ({ w with tables := t, entering := w.entering.eraseIdx i }, reply, broadcasts)
  | .getFile token docId cookie download file =>
    let (t, reply, broadcasts) := getFile order w.tables token docId cookie download file
    some ({ w with tables := t }, reply, broadcasts)
  | .beginReport token cookie =>
    let (w', reply) := beginReport w token cookie
    some (w', reply, [])
  | .finishReport i body =>
    w.reporting[i]?.map fun r =>
      let (t, reply, broadcasts) := finishReport order w.tables r body
      ({ w with tables := t, reporting := w.reporting.eraseIdx i }, reply, broadcasts)

def machine (order : FirstBy LatestEvent) : Machine World Event where
  step w e := (perform order w e).map Prod.fst

end MissionControl.DataRooms.Routes
