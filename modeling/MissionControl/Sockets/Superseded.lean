import MissionControl.Sockets.Hook

/-!
What the events of a socket do that is not the current one any more. Its close event may come long
after `close()`, and writes the refs of the socket that has taken its place.
-/

set_option autoImplicit false
set_option relaxedAutoImplicit false

namespace MissionControl.Sockets.Superseded

open MissionControl.Foundations.Transition (Machine)
open MissionControl.Sockets.Hook
open MissionControl.Sockets.Hook.State (isLive)

variable {urls : Urls} {s s' : State} {e : Event}

/-! ### What is promised -/

/-- The socket that an event of the browser belongs to. -/
def socketOf : Event → Option Nat
  | .opened i | .message i _ _ | .closed i | .error i => some i
  | .connect _ _ _ | .disconnect | .reconnect | .fire _ _ | .closing _ | .tick _ => none

/-- The connection, its handshake and its heartbeat are as they were, and no reconnection has been
scheduled. -/
structure Undisturbed (s s' : State) : Prop where
  connection : s'.connection = s.connection
  handshakeComplete : s'.handshakeComplete = s.handshakeComplete
  running : s'.heartbeat.running = s.heartbeat.running
  timers : s'.timers = s.timers

/-- An event of another socket than the current one disturbs nothing. -/
def Inert (urls : Urls) (s : State) (e : Event) : Prop :=
  ∀ i s', socketOf e = some i → s.current ≠ some i → step urls s e = some s' → Undisturbed s s'

def AtMostOneLive (s : State) : Prop :=
  ∀ i j, s.liveAt i = true → s.liveAt j = true → i = j

/-- The page says that it is connected only while the current socket is open, or is to be. -/
def ConnectedLive (s : State) : Prop :=
  s.connection.isConnected = true → s.currentState.any isLive = true

/-! ### When it is kept -/

/-- Nothing is connected, and a close event would not lead to a new connection. -/
def Settled (s : State) : Prop :=
  s.connection.isConnected = false ∧ s.handshakeComplete = false ∧ s.heartbeat.running = false ∧
    (s.manualDisconnect = true ∨
      if s.nonRetryableError.isSome then s.connection.reconnectAttempts = 0
      else maxReconnectAttempts ≤ s.reconnectAttempts)

/-- A socket that is not the current one tells that it is closed only where that changes nothing. -/
def Harmless (s : State) : Event → Prop
  | .closed i =>
    (s.sockets[i]?).any (fun socket => socket.state ≠ .closed) = true → s.current ≠ some i → Settled s
  | _ => True

/-- The heartbeat would close the current socket. -/
def TimesOut (s : State) : Prop :=
  s.heartbeat.running = true ∧ s.currentState = some .isOpen ∧ s.handshakeComplete = true ∧
    s.heartbeat.supportsPing = true ∧ maxMissedPongs ≤ s.heartbeat.missedPongs

/-- An error after which the socket is closed. -/
def Fatal : Frame → Prop
  | .response id ok error =>
    ok = false ∧ "ping-".isPrefixOf id = false ∧ isNonRetryableGatewayError error = true
  | .challenge | .other => False

/-- The current socket does not begin to close while the page says that it is connected. -/
def Attached (s : State) : Event → Prop
  | .tick _ => s.connection.isConnected = true → ¬ TimesOut s
  | .message i _ frame =>
    s.connection.isConnected = true →
      (s.sockets[i]?).any (fun socket => socket.state = .isOpen) = true → ¬ Fatal frame
  | .closing i => s.connection.isConnected = true → s.current ≠ some i
  | _ => True

/-! ### A close event -/

theorem onClose_undisturbed_iff (s : State) : Undisturbed s (onClose s) ↔ Settled s := by
  have hconnection : ∀ c : Connection, ({ c with isConnected := false } : Connection) = c ↔
      c.isConnected = false := by
    rintro ⟨isConnected, url, attempts, latency, lastConnected⟩
    simp [eq_comm]
  cases hmanual : s.manualDisconnect with
  | true =>
    have hclose : onClose s = State.stopHeartbeat { s with
        connection := { s.connection with isConnected := false }
        handshakeComplete := false } := by
      simp [onClose, hmanual]
    rw [hclose]
    constructor
    · rintro ⟨hsame, hhandshake, hrunning, -⟩
      exact ⟨(hconnection _).mp hsame, hhandshake.symm, hrunning.symm, .inl hmanual⟩
    · rintro ⟨hsame, hhandshake, hrunning, -⟩
      exact ⟨(hconnection _).mpr hsame, hhandshake.symm, hrunning.symm, rfl⟩
  | false =>
    cases herror : s.nonRetryableError with
    | some error =>
      have hclose : onClose s = State.stopHeartbeat { s with
          connection := { s.connection with isConnected := false, reconnectAttempts := 0 }
          handshakeComplete := false } := by
        simp [onClose, hmanual, herror, State.stopHeartbeat]
      have hboth : ({ s.connection with isConnected := false, reconnectAttempts := 0 } :
          Connection) = s.connection ↔
          s.connection.isConnected = false ∧ s.connection.reconnectAttempts = 0 := by
        obtain ⟨isConnected, url, attempts, latency, lastConnected⟩ := s.connection
        simp [eq_comm]
      rw [hclose]
      simp only [Settled, hmanual, herror, Bool.false_eq_true, false_or, Option.isSome_some, if_true]
      constructor
      · rintro ⟨hsame, hhandshake, hrunning, -⟩
        obtain ⟨hdown, hattempts⟩ := hboth.mp hsame
        exact ⟨hdown, hhandshake.symm, hrunning.symm, hattempts⟩
      · rintro ⟨hdown, hhandshake, hrunning, hattempts⟩
        exact ⟨hboth.mpr ⟨hdown, hattempts⟩, hhandshake.symm, hrunning.symm, rfl⟩
    | none =>
      by_cases hattempts : s.reconnectAttempts < maxReconnectAttempts
      · refine iff_of_false (fun hsame => ?_) (fun hsettled => ?_)
        · have htimers : (onClose s).timers = s.timers ++ [s.nextTimer] := by
            simp [onClose, hmanual, herror, hattempts, State.setTimeout, State.stopHeartbeat]
          have hlength := congrArg List.length (htimers.symm.trans hsame.timers)
          simp at hlength
        · have hrest := hsettled.2.2.2
          simp [hmanual, herror] at hrest
          omega
      · have hclose : onClose s = State.stopHeartbeat { s with
            connection := { s.connection with isConnected := false }
            handshakeComplete := false } := by
          simp [onClose, hmanual, herror, hattempts]
        rw [hclose]
        constructor
        · rintro ⟨hsame, hhandshake, hrunning, -⟩
          refine ⟨(hconnection _).mp hsame, hhandshake.symm, hrunning.symm, .inr ?_⟩
          simp only [herror, Option.isSome_none, Bool.false_eq_true, if_false]
          omega
        · rintro ⟨hsame, hhandshake, hrunning, -⟩
          exact ⟨(hconnection _).mpr hsame, hhandshake.symm, hrunning.symm, rfl⟩

/-! ### Only the current socket is alive -/

/-- A socket that is open, or is to be, is the current one. -/
def OneLive (s : State) : Prop := ∀ i, s.liveAt i = true → s.current = some i

theorem OneLive.atMostOne (h : OneLive s) : AtMostOneLive s := by
  intro i j hi hj
  exact Option.some.inj ((h i hi).symm.trans (h j hj))

/-- No other socket comes alive, and the current one stays. -/
structure Narrows (s s' : State) : Prop where
  current : s'.current = s.current
  liveAt : ∀ i, s'.liveAt i = true → s.liveAt i = true

theorem Narrows.oneLive (h : Narrows s s') (hs : OneLive s) : OneLive s' :=
  fun i hi => h.current.trans (hs i (h.liveAt i hi))

theorem narrows_of_eq (hcurrent : s'.current = s.current) (hsockets : s'.sockets = s.sockets) :
    Narrows s s' :=
  ⟨hcurrent, fun i hi => by rwa [State.liveAt, hsockets] at hi⟩

theorem narrows_closeSocket (s : State) (i : Nat) : Narrows s (s.closeSocket i) := by
  refine ⟨rfl, fun j hj => ?_⟩
  rw [State.liveAt_closeSocket] at hj
  by_cases hij : i = j
  · simp [hij] at hj
  · rwa [if_neg hij] at hj

theorem handlePong_narrows (s : State) (now : Nat) (id : String) :
    Narrows s (handlePong s now id) := by
  unfold handlePong
  split
  · exact narrows_of_eq rfl rfl
  · split
    · exact narrows_of_eq rfl rfl
    · exact narrows_of_eq rfl rfl

/-- What a frame does: nothing to the sockets, or it closes the one that it comes through. -/
theorem handleGatewayFrame_cases (s : State) (now i : Nat) (frame : Frame) :
    (Fatal frame ∧ handleGatewayFrame s now i frame =
      (State.stopHeartbeat { s with nonRetryableError :=
        (match frame with | .response _ _ error => some error | _ => none) }).closeSocket i) ∨
    (¬ Fatal frame ∧ (handleGatewayFrame s now i frame).sockets = s.sockets ∧
      (handleGatewayFrame s now i frame).current = s.current ∧
      ((handleGatewayFrame s now i frame).connection.isConnected = s.connection.isConnected ∨
        (handleGatewayFrame s now i frame).connection.isConnected = true)) := by
  cases frame with
  | challenge => exact .inr ⟨id, rfl, rfl, .inl rfl⟩
  | other => exact .inr ⟨id, rfl, rfl, .inl rfl⟩
  | response id ok error =>
    have hpong : ∀ s : State, (handlePong s now id).sockets = s.sockets ∧
        (handlePong s now id).current = s.current ∧
        (handlePong s now id).connection.isConnected = s.connection.isConnected := by
      intro s
      unfold handlePong
      split
      · exact ⟨rfl, rfl, rfl⟩
      · split
        · exact ⟨rfl, rfl, rfl⟩
        · exact ⟨rfl, rfl, rfl⟩
    unfold handleGatewayFrame
    by_cases hshake : ok = true ∧ s.handshakeComplete = false
    · right
      simp only [if_pos hshake]
      refine ⟨fun hfatal => ?_, rfl, rfl, .inr rfl⟩
      exact Bool.noConfusion (hshake.1.symm.trans hfatal.1)
    · simp only [if_neg hshake]
      cases hping : "ping-".isPrefixOf id with
      | true =>
        right
        refine ⟨fun hfatal => Bool.noConfusion (hping.symm.trans hfatal.2.1), ?_⟩
        simp only [if_true]
        split
        · obtain ⟨hsockets, hcurrent, hconnected⟩ := hpong { s with
            heartbeat := { s.heartbeat with supportsPing := false, missedPongs := 0, sent := [] } }
          exact ⟨hsockets, hcurrent, .inl hconnected⟩
        · obtain ⟨hsockets, hcurrent, hconnected⟩ := hpong s
          exact ⟨hsockets, hcurrent, .inl hconnected⟩
      | false =>
        simp only [Bool.false_eq_true, if_false]
        by_cases hfatal : ok = false ∧ isNonRetryableGatewayError error = true
        · left
          rw [if_pos hfatal]
          exact ⟨⟨hfatal.1, hping, hfatal.2⟩, rfl⟩
        · right
          rw [if_neg hfatal]
          exact ⟨fun hf => hfatal ⟨hf.1, hf.2.2⟩, rfl, rfl, .inl rfl⟩

theorem handleGatewayFrame_narrows (s : State) (now i : Nat) (frame : Frame) :
    Narrows s (handleGatewayFrame s now i frame) := by
  obtain ⟨-, hframe⟩ | ⟨-, hsockets, hcurrent, -⟩ := handleGatewayFrame_cases s now i frame
  · rw [hframe]
    have hclosed := narrows_closeSocket (State.stopHeartbeat { s with nonRetryableError :=
      (match frame with | .response _ _ error => some error | _ => none) }) i
    exact ⟨hclosed.current, fun j hj => hclosed.liveAt j hj⟩
  · exact narrows_of_eq hcurrent hsockets

/-- The heartbeat closes the current socket if it times out, and does nothing to sockets otherwise. -/
theorem tick_cases (s : State) (now : Nat) (hrunning : s.heartbeat.running = true) :
    (∃ i, TimesOut s ∧ s.current = some i ∧ tick s now = s.closeSocket i) ∨
    (¬ TimesOut s ∧ (tick s now).sockets = s.sockets ∧ (tick s now).current = s.current ∧
      (tick s now).connection = s.connection) := by
  unfold tick
  by_cases hready : s.currentState = some .isOpen ∧ s.handshakeComplete = true ∧
      s.heartbeat.supportsPing = true
  · rw [if_pos hready]
    by_cases hmissed : maxMissedPongs ≤ s.heartbeat.missedPongs
    · left
      rw [if_pos hmissed]
      cases hcurrent : s.current with
      | none => simp [State.currentState, hcurrent] at hready
      | some i => exact ⟨i, ⟨hrunning, hready.1, hready.2.1, hready.2.2, hmissed⟩, rfl, rfl⟩
    · right
      rw [if_neg hmissed]
      exact ⟨fun hout => hmissed hout.2.2.2.2, rfl, rfl, rfl⟩
  · right
    rw [if_neg hready]
    exact ⟨fun hout => hready ⟨hout.2.1, hout.2.2.1, hout.2.2.2.1⟩, rfl, rfl, rfl⟩

theorem onClose_frame (s : State) : (onClose s).sockets = s.sockets ∧
    (onClose s).current = s.current ∧ (onClose s).connection.isConnected = false := by
  unfold onClose
  split
  · exact ⟨rfl, rfl, rfl⟩
  · split
    · exact ⟨rfl, rfl, rfl⟩
    · split
      · exact ⟨rfl, rfl, rfl⟩
      · exact ⟨rfl, rfl, rfl⟩

/-- What `connect` does: nothing while the current socket is alive; else it makes one, or cannot. -/
theorem connect_cases (s : State) (urls : Urls) (url : String) (token : Option String)
    (throws : Bool) :
    (s.currentState.any isLive = true ∧ s.connect urls url token throws = s) ∨
    (s.currentState.any isLive = false ∧
      ((s.connect urls url token throws).sockets = s.sockets ∧
        (s.connect urls url token throws).current = s.current ∧
        ((s.connect urls url token throws).connection = s.connection ∨
          (s.connect urls url token throws).connection.isConnected = false) ∨
      ∃ normalizedUrl,
        (s.connect urls url token throws).sockets = s.sockets ++ [⟨normalizedUrl, .connecting⟩] ∧
        (s.connect urls url token throws).current = some s.sockets.length ∧
        (s.connect urls url token throws).connection = s.connection)) := by
  unfold State.connect
  cases hlive : s.currentState.any isLive with
  | true => exact .inl ⟨rfl, rfl⟩
  | false =>
    right
    refine ⟨rfl, ?_⟩
    simp only [Bool.false_eq_true, if_false]
    cases urls.normalize url with
    | none => exact .inl ⟨rfl, rfl, .inl rfl⟩
    | some normalizedUrl =>
      cases throws with
      | true => exact .inl ⟨rfl, rfl, .inr rfl⟩
      | false => exact .inr ⟨normalizedUrl, rfl, rfl, rfl⟩

theorem oneLive_connect (h : OneLive s) (urls : Urls) (url : String) (token : Option String)
    (throws : Bool) : OneLive (s.connect urls url token throws) := by
  obtain ⟨-, hsame⟩ | ⟨hdown, ⟨hsockets, hcurrent, -⟩ | ⟨normalizedUrl, hsockets, hcurrent, -⟩⟩ :=
    connect_cases s urls url token throws
  · rwa [hsame]
  · exact (narrows_of_eq hcurrent hsockets).oneLive h
  · intro i hi
    rcases s.liveAt_of_snoc hsockets hi with hold | rfl
    · rw [State.currentState_live, h i hold, Option.any_some, hold] at hdown
      cases hdown
    · exact hcurrent

/-- After `disconnect` no socket is alive. -/
theorem disconnect_dead (h : OneLive s) (i : Nat) : s.disconnect.liveAt i = false := by
  cases hlive : s.disconnect.liveAt i with
  | false => rfl
  | true =>
    exfalso
    unfold State.disconnect at hlive
    cases hcurrent : s.current with
    | none =>
      simp only [hcurrent] at hlive
      have hcur := h i hlive
      rw [hcurrent] at hcur
      cases hcur
    | some j =>
      simp only [hcurrent] at hlive
      have hclosed : ((State.stopHeartbeat { s with
          manualDisconnect := true
          reconnectAttempts := 0
          timers := s.timers.filter fun timer => s.reconnectTimeout ≠ some timer
          reconnectTimeout := none }).closeSocket j).liveAt i = true := hlive
      rw [State.liveAt_closeSocket] at hclosed
      by_cases hij : j = i
      · simp [hij] at hclosed
      · rw [if_neg hij] at hclosed
        have hcur := h i hclosed
        rw [hcurrent] at hcur
        exact hij (Option.some.inj hcur)

/-- Only the current socket is alive, whatever happens. -/
theorem oneLive_step (h : OneLive s) (hstep : step urls s e = some s') : OneLive s' := by
  cases e with
  | connect url token throws =>
    obtain rfl := Option.some.inj hstep
    exact oneLive_connect h urls url token throws
  | disconnect =>
    obtain rfl := Option.some.inj hstep
    intro i hi
    rw [disconnect_dead h] at hi
    cases hi
  | reconnect =>
    obtain rfl := Option.some.inj hstep
    have hdead : OneLive s.disconnect := by
      intro i hi
      rw [disconnect_dead h] at hi
      cases hi
    unfold State.reconnect
    split
    · exact hdead
    · exact hdead
  | fire timer throws =>
    obtain ⟨-, hstep⟩ := Option.ite_none_right_eq_some.mp hstep
    obtain rfl := Option.some.inj hstep
    exact oneLive_connect (s := { s with timers := s.timers.erase timer }) h urls _ _ throws
  | opened i =>
    simp only [step] at hstep
    split at hstep
    · rename_i url hsocket
      obtain rfl := Option.some.inj hstep
      intro j hj
      have hopened : (s.setState i .isOpen).liveAt j = true := hj
      rw [State.liveAt_setState] at hopened
      by_cases hij : i = j
      · subst hij
        exact h i (by simp [State.liveAt, hsocket, isLive])
      · rw [if_neg hij] at hopened
        exact h j hopened
    · cases hstep
  | message i now frame =>
    obtain ⟨-, hstep⟩ := Option.ite_none_right_eq_some.mp hstep
    obtain rfl := Option.some.inj hstep
    exact (handleGatewayFrame_narrows s now i frame).oneLive h
  | closing i =>
    obtain ⟨-, hstep⟩ := Option.ite_none_right_eq_some.mp hstep
    obtain rfl := Option.some.inj hstep
    exact (narrows_closeSocket s i).oneLive h
  | closed i =>
    obtain ⟨-, hstep⟩ := Option.ite_none_right_eq_some.mp hstep
    obtain rfl := Option.some.inj hstep
    obtain ⟨hsockets, hcurrent, -⟩ := onClose_frame (s.setState i .closed)
    have hnarrows : Narrows s (onClose (s.setState i .closed)) := by
      refine ⟨hcurrent, fun j hj => ?_⟩
      rw [State.liveAt, hsockets, ← State.liveAt, State.liveAt_setState] at hj
      by_cases hij : i = j
      · simp [hij, isLive] at hj
      · rwa [if_neg hij] at hj
    exact hnarrows.oneLive h
  | error i =>
    obtain ⟨-, hstep⟩ := Option.ite_none_right_eq_some.mp hstep
    obtain rfl := Option.some.inj hstep
    exact h
  | tick now =>
    obtain ⟨hrunning, hstep⟩ := Option.ite_none_right_eq_some.mp hstep
    obtain rfl := Option.some.inj hstep
    obtain ⟨i, -, -, htick⟩ | ⟨-, hsockets, hcurrent, -⟩ := tick_cases s now hrunning
    · rw [htick]
      exact (narrows_closeSocket s i).oneLive h
    · exact (narrows_of_eq hcurrent hsockets).oneLive h

theorem oneLive_init : OneLive State.init := by
  intro i hi
  simp [State.liveAt, State.init] at hi

/-! ### Events of other sockets -/

/-- An event of another socket than the current one is inert exactly if it is no close event, or one
that changes nothing. -/
theorem inert_iff (h : OneLive s) (e : Event) : Inert urls s e ↔ Harmless s e := by
  have hsilent : ∀ {e}, (∀ i s', socketOf e = some i → s.current ≠ some i →
      step urls s e ≠ some s') → Inert urls s e :=
    fun hnever i s' hi hne hstep => absurd hstep (hnever i s' hi hne)
  cases e with
  | connect url token throws | fire timer throws => exact iff_of_true (fun _ _ hi => nomatch hi) trivial
  | disconnect | reconnect => exact iff_of_true (fun _ _ hi => nomatch hi) trivial
  | closing i | tick now => exact iff_of_true (fun _ _ hi => nomatch hi) trivial
  | opened i =>
    refine iff_of_true (hsilent ?_) trivial
    rintro j s' hj hne hstep
    obtain rfl := Option.some.inj hj
    simp only [step] at hstep
    split at hstep
    · rename_i url hsocket
      exact hne (h i (by simp [State.liveAt, hsocket, isLive]))
    · cases hstep
  | message i now frame =>
    refine iff_of_true (hsilent ?_) trivial
    rintro j s' hj hne hstep
    obtain rfl := Option.some.inj hj
    obtain ⟨hopen, -⟩ := Option.ite_none_right_eq_some.mp hstep
    refine hne (h i ?_)
    unfold State.liveAt
    cases hsocket : s.sockets[i]? with
    | none => simp [hsocket] at hopen
    | some socket =>
      rw [hsocket, Option.any_some, decide_eq_true_eq] at hopen
      simp [isLive, hopen]
  | error i =>
    refine iff_of_true (fun j s' _ _ hstep => ?_) trivial
    obtain ⟨-, hstep⟩ := Option.ite_none_right_eq_some.mp hstep
    obtain rfl := Option.some.inj hstep
    exact ⟨rfl, rfl, rfl, rfl⟩
  | closed i =>
    have hclose : Undisturbed s (onClose (s.setState i .closed)) ↔ Settled s := by
      have hiff := onClose_undisturbed_iff (s.setState i .closed)
      constructor
      · rintro ⟨hconnection, hhandshake, hrunning, htimers⟩
        exact hiff.mp ⟨hconnection, hhandshake, hrunning, htimers⟩
      · intro hsettled
        obtain ⟨hconnection, hhandshake, hrunning, htimers⟩ := hiff.mpr hsettled
        exact ⟨hconnection, hhandshake, hrunning, htimers⟩
    constructor
    · intro hinert hthere hne
      exact hclose.mp (hinert i _ rfl hne (if_pos hthere))
    · intro hharmless j s' hj hne hstep
      obtain rfl := Option.some.inj hj
      obtain ⟨hthere, hstep⟩ := Option.ite_none_right_eq_some.mp hstep
      obtain rfl := Option.some.inj hstep
      exact hclose.mpr (hharmless hthere hne)

/-! ### Connected -/

/-- The current socket is open while the page says that it is connected. -/
def Holds (s : State) : Prop :=
  OneLive s ∧ (s.connection.isConnected = true → s.currentState = some .isOpen)

theorem Holds.connectedLive (h : Holds s) : ConnectedLive s := by
  intro hconnected
  rw [h.2 hconnected]
  rfl

theorem currentState_of_eq (hcurrent : s'.current = s.current) (hsockets : s'.sockets = s.sockets) :
    s'.currentState = s.currentState := by
  rw [State.currentState, State.currentState, hcurrent, hsockets]

/-- What is open is alive. -/
theorem live_of_open (h : s.currentState = some .isOpen) : s.currentState.any isLive = true := by
  rw [h]
  rfl

theorem holds_connect (h : Holds s) (urls : Urls) (url : String) (token : Option String)
    (throws : Bool) : Holds (s.connect urls url token throws) := by
  refine ⟨oneLive_connect h.1 urls url token throws, ?_⟩
  obtain ⟨-, hsame⟩ | ⟨hdown, hcases⟩ := connect_cases s urls url token throws
  · rw [hsame]
    exact h.2
  · have hoff : s.connection.isConnected = false := by
      cases hconnected : s.connection.isConnected with
      | false => rfl
      | true =>
        rw [live_of_open (h.2 hconnected)] at hdown
        cases hdown
    intro hon
    obtain ⟨-, -, hconnection | hconnection⟩ | ⟨normalizedUrl, -, -, hconnection⟩ := hcases
    · rw [hconnection, hoff] at hon
      cases hon
    · rw [hconnection] at hon
      cases hon
    · rw [hconnection, hoff] at hon
      cases hon

/-- The current socket after it has been closed. -/
theorem currentState_closeSocket {i : Nat} (hcurrent : s.current = some i)
    (hlive : s.currentState.any isLive = true) :
    (s.closeSocket i).currentState = some .closing := by
  unfold State.currentState at hlive ⊢
  rw [hcurrent, Option.bind_some] at hlive
  show ((s.current.bind fun j => (s.closeSocket i).sockets[j]?).map Socket.state) = _
  rw [hcurrent, Option.bind_some]
  cases hsocket : s.sockets[i]? with
  | none => simp [hsocket] at hlive
  | some socket =>
    rw [hsocket, Option.map_some, Option.any_some] at hlive
    simp [State.closeSocket, hsocket, hlive]

theorem not_connectedLive_closed {i : Nat} (hcurrent : s.current = some i)
    (hopen : s.currentState = some .isOpen) (hstate : s'.currentState = (s.closeSocket i).currentState)
    (hconnected : s'.connection.isConnected = true) : ¬ ConnectedLive s' := by
  intro hlive
  have hclosing := hlive hconnected
  rw [hstate, currentState_closeSocket hcurrent (live_of_open hopen)] at hclosing
  exact absurd hclosing (by decide)

/-- A step that does not close the current socket while the page says that it is connected keeps what
holds. -/
theorem holds_step (h : Holds s) (hattached : Attached s e) (hstep : step urls s e = some s') :
    Holds s' := by
  refine ⟨oneLive_step h.1 hstep, ?_⟩
  cases e with
  | connect url token throws =>
    obtain rfl := Option.some.inj hstep
    exact (holds_connect h urls url token throws).2
  | disconnect =>
    obtain rfl := Option.some.inj hstep
    exact fun hon => nomatch hon
  | reconnect =>
    obtain rfl := Option.some.inj hstep
    unfold State.reconnect
    split
    · exact fun hon => nomatch hon
    · exact fun hon => nomatch hon
  | fire timer throws =>
    obtain ⟨-, hstep⟩ := Option.ite_none_right_eq_some.mp hstep
    obtain rfl := Option.some.inj hstep
    exact (holds_connect (s := { s with timers := s.timers.erase timer }) h urls _ _ throws).2
  | opened i =>
    simp only [step] at hstep
    split at hstep
    · rename_i url hsocket
      obtain rfl := Option.some.inj hstep
      intro hon
      have hcurrent := h.1 i (by simp [State.liveAt, hsocket, isLive])
      have hopen := h.2 hon
      simp [State.currentState, hcurrent, hsocket] at hopen
    · cases hstep
  | message i now frame =>
    obtain ⟨hthere, hstep⟩ := Option.ite_none_right_eq_some.mp hstep
    obtain rfl := Option.some.inj hstep
    obtain ⟨hfatal, hframe⟩ | ⟨-, hsockets, hcurrent, hconnected⟩ :=
      handleGatewayFrame_cases s now i frame
    · intro hon
      rw [hframe] at hon
      exact absurd hfatal (hattached hon hthere)
    · intro hon
      rw [currentState_of_eq hcurrent hsockets]
      rcases hconnected with hconnected | -
      · exact h.2 (hconnected ▸ hon)
      · cases hsocket : s.sockets[i]? with
        | none => simp [hsocket] at hthere
        | some socket =>
          rw [hsocket, Option.any_some, decide_eq_true_eq] at hthere
          have hcur := h.1 i (by simp [State.liveAt, hsocket, isLive, hthere])
          rw [State.currentState, hcur, Option.bind_some, hsocket, Option.map_some, hthere]
  | closing i =>
    obtain ⟨hthere, hstep⟩ := Option.ite_none_right_eq_some.mp hstep
    obtain rfl := Option.some.inj hstep
    intro hon
    have hcurrent := h.1 i hthere
    exact absurd hcurrent (hattached hon)
  | closed i =>
    obtain ⟨-, hstep⟩ := Option.ite_none_right_eq_some.mp hstep
    obtain rfl := Option.some.inj hstep
    intro hon
    rw [(onClose_frame (s.setState i .closed)).2.2] at hon
    cases hon
  | error i =>
    obtain ⟨-, hstep⟩ := Option.ite_none_right_eq_some.mp hstep
    obtain rfl := Option.some.inj hstep
    exact h.2
  | tick now =>
    obtain ⟨hrunning, hstep⟩ := Option.ite_none_right_eq_some.mp hstep
    obtain rfl := Option.some.inj hstep
    obtain ⟨i, hout, -, htick⟩ | ⟨-, hsockets, hcurrent, hconnection⟩ := tick_cases s now hrunning
    · intro hon
      rw [htick] at hon
      exact absurd hout (hattached hon)
    · rw [currentState_of_eq hcurrent hsockets, hconnection]
      exact h.2

/-- A step that closes the current socket while the page says that it is connected breaks it. -/
theorem detached_breaks (h : Holds s) (hattached : ¬ Attached s e) :
    ∃ s', step urls s e = some s' ∧ ¬ ConnectedLive s' := by
  cases e with
  | closing i =>
    obtain ⟨hon, hcurrent⟩ := Classical.not_imp.mp hattached
    have hcurrent : s.current = some i := Classical.not_not.mp hcurrent
    have hlive : s.liveAt i = true := by
      have hlive := live_of_open (h.2 hon)
      rwa [State.currentState_live, hcurrent, Option.any_some] at hlive
    exact ⟨s.closeSocket i, if_pos hlive, not_connectedLive_closed hcurrent (h.2 hon) rfl hon⟩
  | message i now frame =>
    obtain ⟨hon, hrest⟩ := Classical.not_imp.mp hattached
    obtain ⟨hthere, hfatal⟩ := Classical.not_imp.mp hrest
    have hfatal : Fatal frame := Classical.not_not.mp hfatal
    refine ⟨handleGatewayFrame s now i frame, if_pos hthere, ?_⟩
    obtain ⟨-, hframe⟩ | ⟨hnot, -⟩ := handleGatewayFrame_cases s now i frame
    · cases hsocket : s.sockets[i]? with
      | none => simp [hsocket] at hthere
      | some socket =>
        rw [hsocket, Option.any_some, decide_eq_true_eq] at hthere
        have hcurrent := h.1 i (by simp [State.liveAt, hsocket, isLive, hthere])
        rw [hframe]
        exact not_connectedLive_closed hcurrent (h.2 hon) rfl hon
    · exact absurd hfatal hnot
  | tick now =>
    obtain ⟨hon, hout⟩ := Classical.not_imp.mp hattached
    have hout : TimesOut s := Classical.not_not.mp hout
    refine ⟨tick s now, if_pos hout.1, ?_⟩
    obtain ⟨i, -, hcurrent, htick⟩ | ⟨hnot, -⟩ := tick_cases s now hout.1
    · rw [htick]
      exact not_connectedLive_closed hcurrent (h.2 hon) rfl hon
    · exact absurd hout hnot
  | connect url token throws | fire timer throws => exact absurd trivial hattached
  | disconnect | reconnect => exact absurd trivial hattached
  | opened i | closed i | error i => exact absurd trivial hattached

theorem holds_init : Holds State.init := ⟨oneLive_init, fun hon => nomatch hon⟩

/-- In every run, the events of other sockets than the current one are inert exactly if their close
events come where they change nothing; at most one socket is alive; and the page says that it is
connected only while the current socket is alive, exactly if that does not begin to close meanwhile. -/
theorem superseded_inert_iff (urls : Urls) (trace : List Event) :
    ((machine urls).Meets (Inert urls) State.init trace ↔
      (machine urls).Meets Harmless State.init trace) ∧
    (machine urls).Always AtMostOneLive State.init trace ∧
    ((machine urls).Always ConnectedLive State.init trace ↔
      (machine urls).Meets Attached State.init trace) := by
  have hkept : ∀ s e s', OneLive s → (machine urls).step s e = some s' → OneLive s' :=
    fun s e s' h hstep => oneLive_step h hstep
  refine ⟨?_, ?_, ?_⟩
  · have hagree : ∀ s, OneLive s → ∀ e, Inert urls s e ↔ Harmless s e := fun s h e => inert_iff h e
    exact Machine.meets_congr hagree hkept oneLive_init trace
  · intro front back s _ hrun
    have hlive : OneLive s := Machine.invariant_of_run hkept oneLive_init hrun
    exact hlive.atMostOne
  · have hsound : ∀ s, Holds s → ConnectedLive s := fun s h => h.connectedLive
    refine Machine.always_iff_meets hsound ?_ ?_ holds_init trace
    · exact fun s e s' h hattached hstep => holds_step h hattached hstep
    · exact fun s e h hattached => detached_breaks h hattached

/-! ### A close event that comes late -/

def sampleUrls : Urls := ⟨fun _ => "", some, fun _ _ _ => rfl⟩

def handshake : Frame := .response "mc-1" true ""

/-- The first socket is closed by `disconnect`, and tells so when the second one is connected. -/
def lateClose : List Event :=
  [.connect "ws://gateway" none false, .opened 0, .message 0 1 handshake, .disconnect,
    .connect "ws://gateway" none false, .opened 1, .message 1 2 handshake]

/-- The gateway begins to close the socket. -/
def closingMeanwhile : List Event :=
  [.connect "ws://gateway" none false, .opened 0, .message 0 1 handshake, .closing 0]

theorem superseded_disturbs :
    ¬ (machine sampleUrls).Meets (Inert sampleUrls) State.init (lateClose ++ [.closed 0]) ∧
    ¬ (machine sampleUrls).Always ConnectedLive State.init closingMeanwhile := by
  constructor
  · intro hinert
    obtain ⟨s, hrun⟩ : ∃ s, (machine sampleUrls).run State.init lateClose = some s := by
      rw [← Option.isSome_iff_exists]
      decide +kernel
    have hlast := (hinert.append_right hrun).1
    have hstate : ((machine sampleUrls).run State.init lateClose).any fun s =>
        s.current = some 1 && s.connection.isConnected &&
          ((step sampleUrls s (.closed 0)).any fun s' => !s'.connection.isConnected) := by
      decide +kernel
    rw [hrun, Option.any_some, Bool.and_eq_true, Bool.and_eq_true, decide_eq_true_eq] at hstate
    obtain ⟨⟨hcurrent, hon⟩, hoff⟩ := hstate
    cases hstep : step sampleUrls s (.closed 0) with
    | none => simp [hstep] at hoff
    | some s' =>
      have hsame := (hlast 0 s' rfl (by simp [hcurrent]) hstep).connection
      simp [hstep, hsame, hon] at hoff
  · intro hlive
    obtain ⟨s, hrun⟩ : ∃ s, (machine sampleUrls).run State.init closingMeanwhile = some s := by
      rw [← Option.isSome_iff_exists]
      decide +kernel
    have hlast : ConnectedLive s := hlive _ [] s (List.append_nil _).symm hrun
    have hstate : ((machine sampleUrls).run State.init closingMeanwhile).any fun s =>
        s.connection.isConnected && !s.currentState.any isLive := by
      decide +kernel
    rw [hrun, Option.any_some, Bool.and_eq_true] at hstate
    have hcontra := hlast hstate.1
    simp [hcontra] at hstate

end MissionControl.Sockets.Superseded
