import MissionControl.Events.Bus
import MissionControl.Foundations.JsText
import MissionControl.Foundations.Query

/-!
Data rooms, the links that lead into them, and the visitors who entered: the tables, and the
functions of the library that the routes share. Ids come from counters that only grow. The
clock is in milliseconds.
-/

set_option autoImplicit false
set_option relaxedAutoImplicit false

namespace MissionControl.DataRooms.Rooms

open MissionControl.Foundations.JsText
open MissionControl.Foundations.Query
open MissionControl.Foundations.Schema (Json)
open MissionControl.Events.Bus (Broadcast)

/-! ### Tables -/

inductive RoomStatus where
  | draft
  | active
  | archived
  deriving DecidableEq

/-- A row of `data_rooms`. -/
structure DataRoom where
  id : Nat
  workspaceId : Nat
  name : String
  slug : String
  status : RoomStatus
  deriving DecidableEq

/-- A row of `data_room_documents`. -/
structure DataRoomDocument where
  id : Nat
  roomId : Nat
  filename : String
  originalName : String
  mimeType : String
  allowDownload : Bool
  deriving DecidableEq

/-- A row of `data_room_links`. -/
structure DataRoomLink where
  id : Nat
  roomId : Nat
  token : String
  isActive : Bool
  passcode : Option String
  allowDownload : Bool
  expiresAt : Option Nat
  deriving DecidableEq

/-- A row of `data_room_visitors`. -/
structure DataRoomVisitor where
  id : Nat
  linkId : Nat
  roomId : Nat
  email : String
  name : String
  company : String
  sessionToken : String
  ipAddress : Option String
  userAgent : Option String
  deriving DecidableEq

inductive EventKind where
  | docViewed
  | docDownloaded
  | pageViewed
  deriving DecidableEq

/-- A row of `data_room_events`. -/
structure DataRoomEvent where
  id : Nat
  visitorId : Nat
  roomId : Nat
  documentId : Option Nat
  eventType : EventKind
  pageNumber : Option Nat
  durationSeconds : Option Rat
  createdAt : Nat
  deriving DecidableEq

/-- That a visitor came in through a link. -/
structure Entered where
  visitorId : Nat
  linkId : Nat
  deriving DecidableEq

/-- The tables, their counters, the clock, and who has come in through which link. -/
structure Tables where
  rooms : List DataRoom
  documents : List DataRoomDocument
  links : List DataRoomLink
  visitors : List DataRoomVisitor
  events : List DataRoomEvent
  nextRoomId : Nat
  nextDocumentId : Nat
  nextLinkId : Nat
  nextVisitorId : Nat
  nextEventId : Nat
  now : Nat
  entered : List Entered
  deriving DecidableEq

def Tables.empty (now : Nat) : Tables := ⟨[], [], [], [], [], 1, 1, 1, 1, 1, now, []⟩

/-! ### Rooms and documents -/

def getRoom (t : Tables) (id : Nat) : Option DataRoom := t.rooms.find? fun r => r.id = id

def getDocument (t : Tables) (id : Nat) : Option DataRoomDocument :=
  t.documents.find? fun d => d.id = id

/-- `createRoom`; the index on the slug refuses a slug that is in use. -/
def createRoom (t : Tables) (workspaceId : Nat) (name slug : String) : Except String Tables :=
  if t.rooms.any fun r => r.slug = slug then .error "UNIQUE constraint failed: data_rooms.slug"
  else
    .ok { t with
      rooms := t.rooms ++ [⟨t.nextRoomId, workspaceId, name, slug, .draft⟩]
      nextRoomId := t.nextRoomId + 1 }

/-- The fields of `updateRoom`; `none` is a field that is left alone. -/
structure RoomUpdates where
  name : Option String
  slug : Option String
  status : Option RoomStatus
  deriving DecidableEq

def RoomUpdates.apply (updates : RoomUpdates) (r : DataRoom) : DataRoom :=
  { r with
    name := updates.name.getD r.name
    slug := updates.slug.getD r.slug
    status := updates.status.getD r.status }

def updateRoom (t : Tables) (id : Nat) (updates : RoomUpdates) : Except String Tables :=
  if t.rooms.any fun r => r.id ≠ id ∧ updates.slug = some r.slug then
    .error "UNIQUE constraint failed: data_rooms.slug"
  else .ok { t with rooms := t.rooms.map fun r => if r.id = id then updates.apply r else r }

/-- `deleteRoom`. Everything that refers to the room goes with it. -/
def deleteRoom (t : Tables) (id : Nat) : Tables :=
  { t with
    rooms := t.rooms.filter fun r => r.id ≠ id
    documents := t.documents.filter fun d => d.roomId ≠ id
    links := t.links.filter fun l => l.roomId ≠ id
    visitors := t.visitors.filter fun v => v.roomId ≠ id
    events := t.events.filter fun e => e.roomId ≠ id }

def addDocument (t : Tables) (roomId : Nat) (filename originalName mimeType : String)
    (allowDownload : Bool) : Tables :=
  { t with
    documents := t.documents ++
      [⟨t.nextDocumentId, roomId, filename, originalName, mimeType, allowDownload⟩]
    nextDocumentId := t.nextDocumentId + 1 }

def updateDocument (t : Tables) (id : Nat) (allowDownload : Option Bool) : Tables :=
  { t with
    documents := t.documents.map fun d =>
      if d.id = id then { d with allowDownload := allowDownload.getD d.allowDownload } else d }

/-- `deleteDocument`; the events about it lose it. -/
def deleteDocument (t : Tables) (id : Nat) : Tables :=
  { t with
    documents := t.documents.filter fun d => d.id ≠ id
    events := t.events.map fun e => if e.documentId = some id then { e with documentId := none } else e }

/-! ### Links -/

/-- `createLink`, with the token that it draws. -/
def createLink (t : Tables) (roomId : Nat) (passcode : Option String) (allowDownload : Bool)
    (expiresAt : Option Nat) (token : String) : Except String Tables :=
  if t.links.any fun l => l.token = token then
    .error "UNIQUE constraint failed: data_room_links.token"
  else
    .ok { t with
      links := t.links ++ [⟨t.nextLinkId, roomId, token, true, truthy passcode, allowDownload,
        expiresAt.filter (· ≠ 0)⟩]
      nextLinkId := t.nextLinkId + 1 }

def getLinkByToken (t : Tables) (token : String) : Option DataRoomLink :=
  t.links.find? fun l => l.token = token

/-- The fields of `updateLink`; `none` is a field that is left alone. -/
structure LinkUpdates where
  isActive : Option Bool
  passcode : Option (Option String)
  allowDownload : Option Bool
  expiresAt : Option (Option Nat)
  deriving DecidableEq

def LinkUpdates.apply (updates : LinkUpdates) (l : DataRoomLink) : DataRoomLink :=
  { l with
    isActive := updates.isActive.getD l.isActive
    passcode := updates.passcode.getD l.passcode
    allowDownload := updates.allowDownload.getD l.allowDownload
    expiresAt := updates.expiresAt.getD l.expiresAt }

def updateLink (t : Tables) (id : Nat) (updates : LinkUpdates) : Tables :=
  { t with links := t.links.map fun l => if l.id = id then updates.apply l else l }

/-- `deleteLink`. The visitors who came in through it go with it, and their events. -/
def deleteLink (t : Tables) (id : Nat) : Tables :=
  let gone := (t.visitors.filter fun v => v.linkId = id).map (·.id)
  { t with
    links := t.links.filter fun l => l.id ≠ id
    visitors := t.visitors.filter fun v => v.linkId ≠ id
    events := t.events.filter fun e => e.visitorId ∉ gone }

/-- `link.expires_at && link.expires_at < Math.floor(Date.now() / 1000)`. -/
def isExpired (t : Tables) (link : DataRoomLink) : Bool :=
  link.expiresAt.any fun expiresAt => expiresAt ≠ 0 ∧ expiresAt < seconds t.now

/-! ### Visitors -/

/-- What `createVisitor` is given. -/
structure NewVisitor where
  linkId : Nat
  roomId : Nat
  email : String
  name : String
  company : String
  ipAddress : Option String
  userAgent : Option String
  deriving DecidableEq

/-- `createVisitor`, with the session token that it draws; also the visitor it returns. -/
def createVisitor (t : Tables) (data : NewVisitor) (sessionToken : String) :
    Except String (Tables × DataRoomVisitor) :=
  match t.visitors.find? fun v => v.linkId = data.linkId ∧ v.email = data.email with
  | some existing =>
    let visitor := { existing with
      sessionToken := sessionToken
      ipAddress := truthy data.ipAddress
      userAgent := truthy data.userAgent }
    if t.visitors.any fun v => v.id ≠ existing.id ∧ v.sessionToken = sessionToken then
      .error "UNIQUE constraint failed: data_room_visitors.session_token"
    else
      .ok ({ t with
        visitors := t.visitors.map fun v => if v.id = existing.id then visitor else v
        entered := t.entered ++ [⟨existing.id, data.linkId⟩] }, visitor)
  | none =>
    let visitor : DataRoomVisitor :=
      { id := t.nextVisitorId
        linkId := data.linkId
        roomId := data.roomId
        email := data.email
        name := data.name
        company := data.company
        sessionToken := sessionToken
        ipAddress := truthy data.ipAddress
        userAgent := truthy data.userAgent }
    if t.visitors.any fun v => v.sessionToken = sessionToken then
      .error "UNIQUE constraint failed: data_room_visitors.session_token"
    else if ¬ (t.links.any (fun l => l.id = data.linkId) ∧ t.rooms.any fun r => r.id = data.roomId) then
      .error "FOREIGN KEY constraint failed"
    else
      .ok ({ t with
        visitors := t.visitors ++ [visitor]
        nextVisitorId := t.nextVisitorId + 1
        entered := t.entered ++ [⟨t.nextVisitorId, data.linkId⟩] }, visitor)

def validateVisitorSession (t : Tables) (sessionToken : String) (roomId : Nat) :
    Option DataRoomVisitor :=
  t.visitors.find? fun v => v.sessionToken = sessionToken ∧ v.roomId = roomId

/-! ### Events -/

/-- `ORDER BY created_at DESC`. -/
def LatestEvent (e e' : DataRoomEvent) : Prop := e'.createdAt ≤ e.createdAt

instance decidableLatestEvent : DecidableRel LatestEvent :=
  fun e e' => inferInstanceAs (Decidable (e'.createdAt ≤ e.createdAt))

/-- What `recordEvent` is given. -/
structure NewEvent where
  visitorId : Nat
  roomId : Nat
  documentId : Nat
  eventType : EventKind
  pageNumber : Option Nat
  durationSeconds : Option Rat
  deriving DecidableEq

/-- The events with the duration of the last page filled in that the visitor was on. -/
def backfill (order : FirstBy LatestEvent) (t : Tables) (data : NewEvent) : List DataRoomEvent :=
  if data.eventType = .pageViewed ∧ data.documentId ≠ 0 then
    match order.pick (t.events.filter fun e => e.visitorId = data.visitorId ∧
      e.documentId = some data.documentId ∧ e.eventType = .pageViewed ∧ e.durationSeconds = none) with
    | none => t.events
    | some prev =>
      t.events.map fun e =>
        if e.id = prev.id then
          { e with durationSeconds := some (seconds t.now - e.createdAt : Rat) }
        else e
  else t.events

/-- What `recordEvent` announces. -/
def eventBroadcasts (data : NewEvent) : List Broadcast :=
  let about : Json := .object
    [("room_id", .number data.roomId), ("document_id", .number data.documentId),
      ("visitor_id", .number data.visitorId)]
  match data.eventType with
  | .docViewed => [⟨.dataroomDocumentViewed, about⟩]
  | .docDownloaded => [⟨.dataroomDocumentDownloaded, about⟩]
  | .pageViewed => []

/-- `recordEvent`: the tables, and the id of the event unless the insertion throws. -/
def recordEvent (order : FirstBy LatestEvent) (t : Tables) (data : NewEvent) :
    Tables × Option Nat :=
  let events := backfill order t data
  if t.visitors.any (fun v => v.id = data.visitorId) ∧ t.rooms.any (fun r => r.id = data.roomId) ∧
      t.documents.any fun d => d.id = data.documentId then
    let event : DataRoomEvent :=
      { id := t.nextEventId
        visitorId := data.visitorId
        roomId := data.roomId
        documentId := some data.documentId
        eventType := data.eventType
        pageNumber := data.pageNumber.filter (· ≠ 0)
        durationSeconds := data.durationSeconds.filter (· ≠ 0)
        createdAt := seconds t.now }
    ({ t with events := events ++ [event], nextEventId := t.nextEventId + 1 }, some t.nextEventId)
  else ({ t with events := events }, none)

end MissionControl.DataRooms.Rooms
