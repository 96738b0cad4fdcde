import MissionControl.Foundations.JsText
import MissionControl.Foundations.Transition

/-!
The hook that holds the connection to the gateway: its sockets, its two kinds of timers and the refs
that all of its handlers share. A handler belongs to one socket and writes the refs all the same.
-/

set_option autoImplicit false
set_option relaxedAutoImplicit false

namespace MissionControl.Sockets.Hook

open MissionControl.Foundations.JsText (isWhiteSpace orElse toLowerCase)
open MissionControl.Foundations.Transition (Machine)

/-! ### Sockets and refs -/

inductive ReadyState where
  | connecting
  | isOpen
  | closing
  | closed
  deriving DecidableEq

structure Socket where
  url : String
  state : ReadyState
  deriving DecidableEq

/-- The connection as the store of the page has it. -/
structure Connection where
  isConnected : Bool
  url : String
  reconnectAttempts : Nat
  latency : Option Nat
  lastConnected : Option Nat
  deriving DecidableEq

/-- The pings that are under way. -/
structure Heartbeat where
  running : Bool
  pingCounter : Nat
  sent : List (Nat × Nat)
  missedPongs : Nat
  supportsPing : Bool
  deriving DecidableEq

/-- The refs of the hook; `sockets` are all that were ever made, `timers` the timeouts that are still
to come, by their handles. -/
structure State where
  sockets : List Socket
  current : Option Nat
  timers : List Nat
  nextTimer : Nat
  reconnectTimeout : Option Nat
  heartbeat : Heartbeat
  reconnectUrl : String
  authToken : String
  handshakeComplete : Bool
  reconnectAttempts : Nat
  manualDisconnect : Bool
  nonRetryableError : Option String
  connection : Connection
  deriving DecidableEq

def State.init : State where
  sockets := []
  current := none
  timers := []
  nextTimer := 0
  reconnectTimeout := none
  heartbeat := ⟨false, 0, [], 0, true⟩
  reconnectUrl := ""
  authToken := ""
  handshakeComplete := false
  reconnectAttempts := 0
  manualDisconnect := false
  nonRetryableError := none
  connection := ⟨false, "", 0, none, none⟩

def maxReconnectAttempts : Nat := 10

def maxMissedPongs : Nat := 3

/-- What the browser makes of the text of a URL: the parameter `token`, and the address of the
gateway, unless that cannot be made. An address can be made of one that was made. -/
structure Urls where
  token : String → String
  normalize : String → Option String
  normalize_normal : ∀ url address, normalize url = some address → (normalize address).isSome = true

namespace State

variable (s : State)

/-- The state of the socket that `wsRef` holds. -/
def currentState : Option ReadyState :=
  (s.current.bind fun i => s.sockets[i]?).map Socket.state

/-- A socket that is open, or is to be. -/
def isLive (state : ReadyState) : Bool := state = .isOpen || state = .connecting

def setState (i : Nat) (state : ReadyState) : State :=
  { s with sockets := s.sockets.modify i fun socket => { socket with state := state } }

/-- `close()` of a socket. -/
def closeSocket (i : Nat) : State :=
  { s with
    sockets := s.sockets.modify i fun socket =>
      if isLive socket.state then { socket with state := .closing } else socket }

def stopHeartbeat : State :=
  { s with heartbeat := { s.heartbeat with running := false, sent := [], missedPongs := 0 } }

def startHeartbeat : State := { s with heartbeat := { s.heartbeat with running := true } }

/-- `setTimeout` with a connection to make. -/
def setTimeout : State := { s with timers := s.timers ++ [s.nextTimer], nextTimer := s.nextTimer + 1 }

/-- `connect`; `throws` says that the socket cannot be made. -/
def connect (urls : Urls) (url : String) (token : Option String) (throws : Bool) : State :=
  if s.currentState.any isLive then s
  else
    let authToken := orElse (token.getD "") (urls.token url)
    match urls.normalize url with
    | none => { s with authToken := authToken }
    | some normalizedUrl =>
      let ready : State := { s with
        authToken := authToken
        reconnectUrl := normalizedUrl
        handshakeComplete := false
        manualDisconnect := false
        nonRetryableError := none }
      if throws then { ready with connection := { s.connection with isConnected := false } }
      else
        { ready with
          sockets := s.sockets ++ [⟨normalizedUrl, .connecting⟩]
          current := some s.sockets.length }

/-- `disconnect`. -/
def disconnect : State :=
  let manual : State := { s with
    manualDisconnect := true
    reconnectAttempts := 0
    timers := s.timers.filter fun timer => s.reconnectTimeout ≠ some timer
    reconnectTimeout := none }
  let stopped := manual.stopHeartbeat
  let closed : State :=
    match s.current with
    | none => stopped
    | some i => { stopped.closeSocket i with current := none }
  { closed with
    handshakeComplete := false
    connection := { s.connection with isConnected := false, reconnectAttempts := 0, latency := none } }

/-- `reconnect`; the handle of its timer is not kept. -/
def reconnect : State :=
  if s.disconnect.reconnectUrl = "" then s.disconnect else s.disconnect.setTimeout

end State

/-! ### Handlers -/

/-- `ws.onopen` of a socket. -/
def onOpen (s : State) (socket : Socket) : State :=
  { s with connection := { s.connection with url := socket.url, reconnectAttempts := 0 } }

/-- `ws.onclose` of any socket. -/
def onClose (s : State) : State :=
  let closed := State.stopHeartbeat { s with
    connection := { s.connection with isConnected := false }
    handshakeComplete := false }
  if s.manualDisconnect then closed
  else if s.nonRetryableError.isSome then
    { closed with connection := { closed.connection with reconnectAttempts := 0 } }
  else if s.reconnectAttempts < maxReconnectAttempts then
    { closed.setTimeout with
      reconnectAttempts := s.reconnectAttempts + 1
      connection := { closed.connection with reconnectAttempts := s.reconnectAttempts + 1 }
      reconnectTimeout := some s.nextTimer }
  else closed

/-- A frame of the gateway, as far as the connection depends on it. -/
inductive Frame where
  | challenge
  | response (id : String) (ok : Bool) (error : String)
  | other
  deriving DecidableEq

def includes (text pattern : List Char) : Bool := text.tails.any (pattern.isPrefixOf ·)

def isNonRetryableGatewayError (message : String) : Bool :=
  ["origin not allowed", "device identity required", "device_auth_signature_invalid",
    "invalid connect params", "/client/id", "auth rate limit", "rate limited"].any fun pattern =>
      includes (toLowerCase message).toList pattern.toList

/-- `/unknown method:\s*ping/i`. -/
def unknownPing (message : String) : Bool :=
  (toLowerCase message).toList.tails.any fun text =>
    "unknown method:".toList.isPrefixOf text &&
      "ping".toList.isPrefixOf ((text.drop "unknown method:".length).dropWhile isWhiteSpace)

/-- The number in the id of a ping. -/
def pingNumber (s : State) (id : String) : Option (Nat × Nat) :=
  s.heartbeat.sent.find? fun ping => id = "ping-" ++ toString ping.1

/-- `handlePong`. -/
def handlePong (s : State) (now : Nat) (id : String) : State :=
  match pingNumber s id with
  | none => s
  | some (number, sentAt) =>
    if sentAt = 0 then s
    else
      { s with
        heartbeat := { s.heartbeat with
          sent := s.heartbeat.sent.filter fun ping => ping.1 ≠ number
          missedPongs := 0 }
        connection := { s.connection with latency := some (now - sentAt) } }

/-- `handleGatewayFrame` for a frame that comes through a socket. -/
def handleGatewayFrame (s : State) (now i : Nat) : Frame → State
  | .challenge | .other => s
  | .response id ok error =>
    if ok ∧ s.handshakeComplete = false then
      State.startHeartbeat { s with
        handshakeComplete := true
        reconnectAttempts := 0
        connection := { s.connection with
          isConnected := true
          lastConnected := some now
          reconnectAttempts := 0 } }
    else if "ping-".isPrefixOf id then
      if ok = false ∧ unknownPing error then
        handlePong { s with
          heartbeat := { s.heartbeat with supportsPing := false, missedPongs := 0, sent := [] } }
          now id
      else handlePong s now id
    else if ok = false ∧ isNonRetryableGatewayError error then
      (State.stopHeartbeat { s with nonRetryableError := some error }).closeSocket i
    else s

/-- The interval of the heartbeat has passed. -/
def tick (s : State) (now : Nat) : State :=
  if s.currentState = some .isOpen ∧ s.handshakeComplete ∧ s.heartbeat.supportsPing then
    if maxMissedPongs ≤ s.heartbeat.missedPongs then
      match s.current with
      | none => s
      | some i => s.closeSocket i
    else
      { s with
        heartbeat := { s.heartbeat with
          pingCounter := s.heartbeat.pingCounter + 1
          sent := s.heartbeat.sent ++ [(s.heartbeat.pingCounter + 1, now)]
          missedPongs := s.heartbeat.missedPongs + 1 } }
  else s

/-! ### Events -/

inductive Event where
  | connect (url : String) (token : Option String) (throws : Bool)
  | disconnect
  | reconnect
  /-- A timeout has passed. -/
  | fire (timer : Nat) (throws : Bool)
  | opened (i : Nat)
  | message (i : Nat) (now : Nat) (frame : Frame)
  /-- The other side begins to close. -/
  | closing (i : Nat)
  | closed (i : Nat)
  | error (i : Nat)
  | tick (now : Nat)
  deriving DecidableEq

/-- Messages come only through an open socket. An error is logged; the logs are no part of the
state. -/
def step (urls : Urls) (s : State) : Event → Option State
  | .connect url token throws => some (s.connect urls url token throws)
  | .disconnect => some s.disconnect
  | .reconnect => some s.reconnect
  | .fire timer throws =>
    if timer ∈ s.timers then
      some (State.connect { s with timers := s.timers.erase timer } urls s.reconnectUrl
        (some s.authToken) throws)
    else none
  | .opened i =>
    match s.sockets[i]? with
    | some ⟨url, .connecting⟩ => some (onOpen (s.setState i .isOpen) ⟨url, .isOpen⟩)
    | _ => none
  | .message i now frame =>
    if (s.sockets[i]?).any (fun socket => socket.state = .isOpen) then
      some (handleGatewayFrame s now i frame)
    else none
  | .closing i =>
    if (s.sockets[i]?).any (fun socket => State.isLive socket.state) then some (s.closeSocket i)
    else none
  | .closed i =>
    if (s.sockets[i]?).any (fun socket => socket.state ≠ .closed) then
      some (onClose (s.setState i .closed))
    else none
  | .error i => if i < s.sockets.length then some s else none
  | .tick now => if s.heartbeat.running then some (tick s now) else none

def machine (urls : Urls) : Machine State Event := ⟨step urls⟩

/-! ### Sockets that are alive -/

namespace State

variable (s : State)

/-- The socket at an index is open, or is to be. -/
def liveAt (i : Nat) : Bool := (s.sockets[i]?).any fun socket => isLive socket.state

theorem currentState_live : s.currentState.any isLive = s.current.any s.liveAt := by
  unfold currentState
  cases s.current with
  | none => rfl
  | some i => simp [liveAt, Option.any_map]

theorem liveAt_setState (i j : Nat) (state : ReadyState) :
    (s.setState i state).liveAt j =
      if i = j then (s.sockets[j]?).isSome && isLive state else s.liveAt j := by
  simp only [liveAt, setState, List.getElem?_modify]
  by_cases hij : i = j
  · simp only [hij, if_true]
    cases s.sockets[j]? <;> simp
  · simp [hij]

theorem not_live_close (socket : Socket) :
    isLive (if isLive socket.state then { socket with state := .closing } else socket).state =
      false := by
  cases hlive : isLive socket.state with
  | true => rfl
  | false => exact hlive

theorem liveAt_closeSocket (i j : Nat) :
    (s.closeSocket i).liveAt j = if i = j then false else s.liveAt j := by
  simp only [liveAt, closeSocket, List.getElem?_modify]
  by_cases hij : i = j
  · simp only [hij, if_true]
    cases s.sockets[j]? with
    | none => rfl
    | some socket => exact not_live_close socket
  · simp [hij]

/-- Only the socket that is new can be alive besides the others. -/
theorem liveAt_of_snoc {s' : State} {socket : Socket} (h : s'.sockets = s.sockets ++ [socket])
    {j : Nat} (hlive : s'.liveAt j = true) : s.liveAt j = true ∨ j = s.sockets.length := by
  rw [liveAt, h] at hlive
  by_cases hj : j < s.sockets.length
  · left
    rwa [List.getElem?_append_left hj] at hlive
  · right
    rw [List.getElem?_append_right (by omega)] at hlive
    by_contra hne
    rw [List.getElem?_eq_none (by simp only [List.length_singleton]; omega)] at hlive
    cases hlive

end State

end MissionControl.Sockets.Hook
