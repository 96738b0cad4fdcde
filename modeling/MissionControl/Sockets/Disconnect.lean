import MissionControl.Sockets.Superseded

/-!
Whether `disconnect` is final. It stops the one timer whose handle is kept; a timer of `reconnect`, or
of a close event before the last one, still makes a socket.
-/

set_option autoImplicit false
set_option relaxedAutoImplicit false

namespace MissionControl.Sockets.Disconnect

open MissionControl.Foundations.Transition (Machine)
open MissionControl.Sockets.Hook
open MissionControl.Sockets.Superseded

variable {urls : Urls} {s s' : State} {e : Event}

/-- A call that asks for a connection. -/
def Calls : Event → Prop
  | .connect _ _ _ | .reconnect => True
  | _ => False

/-- After `disconnect` no socket is made until a connection is asked for. -/
def Final (urls : Urls) (s : State) : Prop :=
  ∀ later s', (∀ e ∈ later, ¬ Calls e) → (machine urls).run s.disconnect later = some s' →
    s'.sockets.length = s.disconnect.sockets.length

/-- The only timer that is still to come is the one whose handle is kept. -/
def OneTimer (s : State) : Prop := ∀ timer ∈ s.timers, s.reconnectTimeout = some timer

/-! ### No timer is left -/

/-- Nothing is under way that makes a socket. -/
structure Idle (sockets : Nat) (s : State) : Prop where
  manual : s.manualDisconnect = true
  timers : s.timers = []
  length : s.sockets.length = sockets

theorem disconnect_frame (s : State) : s.disconnect.manualDisconnect = true ∧
    s.disconnect.timers = s.timers.filter (fun timer => s.reconnectTimeout ≠ some timer) ∧
    s.disconnect.sockets.length = s.sockets.length ∧ s.disconnect.reconnectUrl = s.reconnectUrl ∧
    s.disconnect.current = none := by
  unfold State.disconnect
  cases hcurrent : s.current with
  | none => exact ⟨rfl, rfl, rfl, rfl, rfl⟩
  | some i => exact ⟨rfl, rfl, List.length_modify _ _ _, rfl, rfl⟩

theorem handlePong_idle (s : State) (now : Nat) (id : String) :
    (handlePong s now id).manualDisconnect = s.manualDisconnect ∧
      (handlePong s now id).timers = s.timers := by
  unfold handlePong
  split
  · exact ⟨rfl, rfl⟩
  · split
    · exact ⟨rfl, rfl⟩
    · exact ⟨rfl, rfl⟩

theorem handleGatewayFrame_idle (s : State) (now i : Nat) (frame : Frame) :
    (handleGatewayFrame s now i frame).manualDisconnect = s.manualDisconnect ∧
      (handleGatewayFrame s now i frame).timers = s.timers := by
  cases frame with
  | challenge | other => exact ⟨rfl, rfl⟩
  | response id ok error =>
    simp only [handleGatewayFrame]
    split
    · exact ⟨rfl, rfl⟩
    · split
      · split
        · exact handlePong_idle _ now id
        · exact handlePong_idle s now id
      · split
        · exact ⟨rfl, rfl⟩
        · exact ⟨rfl, rfl⟩

theorem handleGatewayFrame_length (s : State) (now i : Nat) (frame : Frame) :
    (handleGatewayFrame s now i frame).sockets.length = s.sockets.length := by
  obtain ⟨-, hframe⟩ | ⟨-, hsockets, -⟩ := handleGatewayFrame_cases s now i frame
  · rw [hframe]
    exact List.length_modify _ _ _
  · rw [hsockets]

theorem tick_idle (s : State) (now : Nat) : (tick s now).manualDisconnect = s.manualDisconnect ∧
    (tick s now).timers = s.timers ∧ (tick s now).sockets.length = s.sockets.length := by
  unfold tick
  split
  · split
    · split
      · exact ⟨rfl, rfl, rfl⟩
      · exact ⟨rfl, rfl, List.length_modify _ _ _⟩
    · exact ⟨rfl, rfl, rfl⟩
  · exact ⟨rfl, rfl, rfl⟩

theorem onClose_idle (h : s.manualDisconnect = true) :
    (onClose s).manualDisconnect = true ∧ (onClose s).timers = s.timers ∧
      (onClose s).sockets = s.sockets := by
  unfold onClose
  rw [if_pos h]
  exact ⟨h, rfl, rfl⟩

/-- While no timer is left, a step that is no call makes no socket. -/
theorem idle_step {sockets : Nat} (h : Idle sockets s) (hcall : ¬ Calls e)
    (hstep : step urls s e = some s') : Idle sockets s' := by
  cases e with
  | connect url token throws => exact absurd trivial hcall
  | reconnect => exact absurd trivial hcall
  | disconnect =>
    obtain rfl := Option.some.inj hstep
    obtain ⟨hmanual, htimers, hlength, -⟩ := disconnect_frame s
    exact ⟨hmanual, by rw [htimers, h.timers]; rfl, hlength.trans h.length⟩
  | fire timer throws =>
    obtain ⟨htimer, -⟩ := Option.ite_none_right_eq_some.mp hstep
    rw [h.timers] at htimer
    cases htimer
  | opened i =>
    simp only [step] at hstep
    split at hstep
    · obtain rfl := Option.some.inj hstep
      exact ⟨h.manual, h.timers, (List.length_modify _ _ _).trans h.length⟩
    · cases hstep
  | message i now frame =>
    obtain ⟨-, hstep⟩ := Option.ite_none_right_eq_some.mp hstep
    obtain rfl := Option.some.inj hstep
    obtain ⟨hmanual, htimers⟩ := handleGatewayFrame_idle s now i frame
    exact ⟨hmanual.trans h.manual, htimers.trans h.timers,
      (handleGatewayFrame_length s now i frame).trans h.length⟩
  | closing i =>
    obtain ⟨-, hstep⟩ := Option.ite_none_right_eq_some.mp hstep
    obtain rfl := Option.some.inj hstep
    exact ⟨h.manual, h.timers, (List.length_modify _ _ _).trans h.length⟩
  | closed i =>
    obtain ⟨-, hstep⟩ := Option.ite_none_right_eq_some.mp hstep
    obtain rfl := Option.some.inj hstep
    have hmanual : (s.setState i .closed).manualDisconnect = true := h.manual
    obtain ⟨hmanual, htimers, hsockets⟩ := onClose_idle hmanual
    refine ⟨hmanual, htimers.trans h.timers, ?_⟩
    rw [hsockets]
    exact (List.length_modify _ _ _).trans h.length
  | error i =>
    obtain ⟨-, hstep⟩ := Option.ite_none_right_eq_some.mp hstep
    obtain rfl := Option.some.inj hstep
    exact h
  | tick now =>
    obtain ⟨-, hstep⟩ := Option.ite_none_right_eq_some.mp hstep
    obtain rfl := Option.some.inj hstep
    obtain ⟨hmanual, htimers, hlength⟩ := tick_idle s now
    exact ⟨hmanual.trans h.manual, htimers.trans h.timers, hlength.trans h.length⟩

theorem meets_of_no_call (later : List Event) (hcalls : ∀ e ∈ later, ¬ Calls e) (s : State) :
    (machine urls).Meets (fun _ e => ¬ Calls e) s later := by
  induction later generalizing s with
  | nil => trivial
  | cons e later ih =>
    exact ⟨hcalls e List.mem_cons_self,
      fun s' _ => ih (fun e' he' => hcalls e' (List.mem_cons_of_mem e he')) s'⟩

theorem final_of_oneTimer (h : OneTimer s) : Final urls s := by
  intro later s' hcalls hrun
  obtain ⟨hmanual, htimers, -⟩ := disconnect_frame s
  have hnone : s.disconnect.timers = [] := by
    rw [htimers, List.filter_eq_nil_iff]
    intro timer htimer
    simp [h timer htimer]
  have hidle : Idle s.disconnect.sockets.length s.disconnect := ⟨hmanual, hnone, rfl⟩
  have hkept : ∀ t e t', Idle s.disconnect.sockets.length t → ¬ Calls e →
      (machine urls).step t e = some t' → Idle s.disconnect.sockets.length t' :=
    fun t e t' hidle hcall hstep => idle_step hidle hcall hstep
  exact (Machine.run_invariant hkept hidle (meets_of_no_call later hcalls _) hrun).length

/-! ### A timer is left -/

/-- Where a timer is still to come, there is an address to connect to. -/
def Addressed (urls : Urls) (s : State) : Prop :=
  (urls.normalize s.reconnectUrl).isSome = true ∨
    (s.reconnectUrl = "" ∧ s.sockets = [] ∧ s.timers = [])

theorem addressed_connect (h : Addressed urls s) (url : String) (token : Option String)
    (throws : Bool) : Addressed urls (s.connect urls url token throws) := by
  unfold State.connect
  split
  · exact h
  · simp only
    cases haddress : urls.normalize url with
    | none => exact h
    | some address =>
      left
      cases throws with
      | true => exact urls.normalize_normal url address haddress
      | false => exact urls.normalize_normal url address haddress

theorem handleGatewayFrame_url (s : State) (now i : Nat) (frame : Frame) :
    (handleGatewayFrame s now i frame).reconnectUrl = s.reconnectUrl := by
  have hpong : ∀ s : State, ∀ id, (handlePong s now id).reconnectUrl = s.reconnectUrl := by
    intro s id
    unfold handlePong
    split
    · rfl
    · split
      · rfl
      · rfl
  cases frame with
  | challenge | other => rfl
  | response id ok error =>
    simp only [handleGatewayFrame]
    split
    · rfl
    · split
      · split
        · exact hpong _ id
        · exact hpong s id
      · split
        · rfl
        · rfl

theorem tick_url (s : State) (now : Nat) : (tick s now).reconnectUrl = s.reconnectUrl := by
  unfold tick
  split
  · split
    · split
      · rfl
      · rfl
    · rfl
  · rfl

theorem onClose_url (s : State) : (onClose s).reconnectUrl = s.reconnectUrl := by
  unfold onClose
  split
  · rfl
  · split
    · rfl
    · split
      · rfl
      · rfl

/-- Where a socket was made, there is an address. -/
theorem Addressed.of_socket (h : Addressed urls s) {i : Nat} {socket : Socket}
    (hsocket : s.sockets[i]? = some socket) : (urls.normalize s.reconnectUrl).isSome = true := by
  rcases h with h | ⟨-, hnone, -⟩
  · exact h
  · rw [hnone] at hsocket
    cases hsocket

theorem exists_socket {i : Nat} {p : Socket → Bool} (h : (s.sockets[i]?).any p = true) :
    ∃ socket, s.sockets[i]? = some socket := by
  cases hsocket : s.sockets[i]? with
  | none => simp [hsocket] at h
  | some socket => exact ⟨socket, rfl⟩

theorem addressed_step (h : Addressed urls s) (hstep : step urls s e = some s') :
    Addressed urls s' := by
  cases e with
  | connect url token throws =>
    obtain rfl := Option.some.inj hstep
    exact addressed_connect h url token throws
  | fire timer throws =>
    obtain ⟨htimer, hstep⟩ := Option.ite_none_right_eq_some.mp hstep
    obtain rfl := Option.some.inj hstep
    refine addressed_connect ?_ s.reconnectUrl (some s.authToken) throws
    rcases h with h | ⟨-, -, hnone⟩
    · exact .inl h
    · rw [hnone] at htimer
      cases htimer
  | disconnect | reconnect =>
    obtain rfl := Option.some.inj hstep
    obtain ⟨-, htimers, hlength, hurl, -⟩ := disconnect_frame s
    have hdisconnect : Addressed urls s.disconnect := by
      rcases h with h | ⟨hempty, hsockets, hnone⟩
      · exact .inl (hurl ▸ h)
      · refine .inr ⟨hurl.trans hempty, ?_, by rw [htimers, hnone]; rfl⟩
        rw [hsockets] at hlength
        exact List.eq_nil_of_length_eq_zero hlength
    first
    | exact hdisconnect
    | unfold State.reconnect
      split
      · exact hdisconnect
      · rename_i hurl
        rcases hdisconnect with hsome | ⟨hempty, -, -⟩
        · exact .inl hsome
        · exact absurd hempty hurl
  | opened i =>
    simp only [step] at hstep
    split at hstep
    · rename_i url hsocket
      obtain rfl := Option.some.inj hstep
      exact .inl (h.of_socket hsocket)
    · cases hstep
  | message i now frame =>
    obtain ⟨hthere, hstep⟩ := Option.ite_none_right_eq_some.mp hstep
    obtain rfl := Option.some.inj hstep
    obtain ⟨socket, hsocket⟩ := exists_socket hthere
    left
    rw [handleGatewayFrame_url]
    exact h.of_socket hsocket
  | closing i =>
    obtain ⟨hthere, hstep⟩ := Option.ite_none_right_eq_some.mp hstep
    obtain rfl := Option.some.inj hstep
    obtain ⟨socket, hsocket⟩ := exists_socket hthere
    exact .inl (h.of_socket hsocket)
  | closed i =>
    obtain ⟨hthere, hstep⟩ := Option.ite_none_right_eq_some.mp hstep
    obtain rfl := Option.some.inj hstep
    obtain ⟨socket, hsocket⟩ := exists_socket hthere
    left
    rw [onClose_url]
    exact h.of_socket hsocket
  | error i =>
    obtain ⟨-, hstep⟩ := Option.ite_none_right_eq_some.mp hstep
    obtain rfl := Option.some.inj hstep
    exact h
  | tick now =>
    obtain ⟨-, hstep⟩ := Option.ite_none_right_eq_some.mp hstep
    obtain rfl := Option.some.inj hstep
    rcases h with h | ⟨hempty, hsockets, hnone⟩
    · left
      rw [tick_url]
      exact h
    · obtain ⟨-, htimers, hlength⟩ := tick_idle s now
      refine .inr ⟨(tick_url s now).trans hempty, ?_, htimers.trans hnone⟩
      rw [hsockets] at hlength
      exact List.eq_nil_of_length_eq_zero hlength

/-- A timer that is left makes a socket. -/
theorem not_final_of_timer (haddress : Addressed urls s) {timer : Nat} (htimer : timer ∈ s.timers)
    (hother : s.reconnectTimeout ≠ some timer) : ¬ Final urls s := by
  intro hfinal
  obtain ⟨-, htimers, -, hurl, hcurrent⟩ := disconnect_frame s
  have hleft : timer ∈ s.disconnect.timers := by
    rw [htimers, List.mem_filter]
    exact ⟨htimer, by simpa using hother⟩
  have hsome : (urls.normalize s.disconnect.reconnectUrl).isSome = true := by
    rw [hurl]
    rcases haddress with hsome | ⟨-, -, hnone⟩
    · exact hsome
    · rw [hnone] at htimer
      cases htimer
  obtain ⟨address, haddress⟩ := Option.isSome_iff_exists.mp hsome
  have hdead : (({ s.disconnect with timers := s.disconnect.timers.erase timer } :
      State).currentState.any State.isLive) = false := by
    rw [State.currentState_live]
    show (s.disconnect.current).any _ = false
    rw [hcurrent]
    rfl
  have hlength := hfinal [.fire timer false] _ (by simp [Calls])
    ((Machine.run_cons_eq_some _).mpr ⟨_, if_pos hleft, rfl⟩)
  rw [State.connect, hdead] at hlength
  simp [haddress] at hlength

/-- After a history of any kind, `disconnect` is final exactly if the only timer that is still to come
is the one whose handle is kept. -/
theorem disconnect_final_iff (urls : Urls) {trace : List Event}
    (hrun : (machine urls).run State.init trace = some s) : Final urls s ↔ OneTimer s := by
  have hinit : Addressed urls State.init := .inr ⟨rfl, rfl, rfl⟩
  have hkept : ∀ s e s', Addressed urls s → (machine urls).step s e = some s' → Addressed urls s' :=
    fun s e s' h hstep => addressed_step h hstep
  have haddress : Addressed urls s := Machine.invariant_of_run hkept hinit hrun
  refine ⟨fun hfinal timer htimer => ?_, final_of_oneTimer⟩
  by_contra hother
  exact not_final_of_timer haddress htimer hother hfinal

/-! ### A timer that `disconnect` does not stop -/

/-- A socket is lost and a reconnection is scheduled; its handle is kept. -/
def lost : List Event :=
  [.connect "ws://gateway" none false, .opened 0, .message 0 1 handshake, .closed 0]

theorem disconnect_final_sample : ∃ s, (machine sampleUrls).run State.init lost = some s ∧
    s.timers = [0] ∧ Final sampleUrls s := by
  have hstate : ((machine sampleUrls).run State.init lost).any fun s =>
      s.timers = [0] && s.reconnectTimeout = some 0 := by
    decide +kernel
  obtain ⟨s, hrun, hboth⟩ := (Option.any_eq_true _ _).mp hstate
  obtain ⟨htimers, htimeout⟩ := (Bool.and_eq_true _ _).mp hboth
  have htimers := of_decide_eq_true htimers
  refine ⟨s, hrun, htimers, (disconnect_final_iff sampleUrls hrun).mpr ?_⟩
  intro timer htimer
  rw [htimers, List.mem_singleton] at htimer
  rw [htimer, of_decide_eq_true htimeout]

/-- `reconnect` and then `disconnect`: a second later there is a socket again. -/
theorem disconnect_not_final : ∃ s s',
    (machine sampleUrls).run State.init [.connect "ws://gateway" none false, .reconnect] = some s ∧
    (machine sampleUrls).run s.disconnect [.fire 0 false] = some s' ∧
    s.disconnect.sockets.length = 1 ∧ s'.sockets.length = 2 ∧
    s'.currentState = some .connecting ∧ ¬ Final sampleUrls s := by
  have hstate : ((machine sampleUrls).run State.init
      [.connect "ws://gateway" none false, .reconnect]).any fun s =>
        s.disconnect.sockets.length = 1 &&
          ((machine sampleUrls).run s.disconnect [.fire 0 false]).any fun s' =>
            s'.sockets.length = 2 && s'.currentState = some .connecting := by
    decide +kernel
  obtain ⟨s, hrun, hsecond⟩ := (Option.any_eq_true _ _).mp hstate
  obtain ⟨hone, hsecond⟩ := (Bool.and_eq_true _ _).mp hsecond
  obtain ⟨s', hlater, hboth⟩ := (Option.any_eq_true _ _).mp hsecond
  obtain ⟨htwo, hstate⟩ := (Bool.and_eq_true _ _).mp hboth
  have hone := of_decide_eq_true hone
  have htwo := of_decide_eq_true htwo
  refine ⟨s, s', hrun, hlater, hone, htwo, of_decide_eq_true hstate, fun hfinal => ?_⟩
  have hlength := hfinal [.fire 0 false] s' (by simp [Calls]) hlater
  omega

end MissionControl.Sockets.Disconnect
