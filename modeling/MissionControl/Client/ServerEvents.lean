import Mathlib.Algebra.Order.Field.Rat
import Mathlib.Algebra.Order.Floor.Ring
import Mathlib.Data.Rat.Floor
import Mathlib.Tactic.Linarith
import MissionControl.Client.Actions
import MissionControl.Foundations.Transition

/-!
The hook that reads `GET /api/events`. While it is mounted it has one event source or one timer that
makes the next one, until it has failed too often in a row; after that, and when it is unmounted, it
has none.
-/

set_option autoImplicit false
set_option relaxedAutoImplicit false

namespace MissionControl.Client.ServerEvents

open MissionControl.Foundations.Transition (Machine)
open Actions

def maxReconnectAttempts : Nat := 20

def baseDelayMs : Nat := 1000

def maxDelayMs : Nat := 30000

/-- `readyState`, where an event source that has failed counts as closed once it is closed. -/
inductive ReadyState where
  | connecting
  | opened
  | closed
  deriving DecidableEq

/-- An event source, with the effect whose handlers it has. -/
structure Source where
  mount : Nat
  readyState : ReadyState
  deriving DecidableEq

/-- A `setTimeout` that is still to come, with the effect whose callback it has. -/
structure Timer where
  id : Nat
  mount : Nat
  delay : Int
  deriving DecidableEq

/-- The refs of the hook, the `mounted` of its last effect, and what the browser has of it. -/
structure State where
  mounts : Nat
  mounted : Bool
  eventSource : Option Nat
  reconnectTimeout : Option Nat
  reconnectAttempts : Nat
  sources : List Source
  timers : List Timer
  nextTimer : Nat
  sseConnected : Bool
  store : Store

def State.initial (store : Store) : State :=
  ⟨0, false, none, none, 0, [], [], 0, false, store⟩

namespace State

variable (s : State)

/-- `mounted`, for the handlers of an effect. -/
def isMounted (mount : Nat) : Bool := s.mounted ∧ mount = s.mounts

def setReadyState (i : Nat) (readyState : ReadyState) : State :=
  { s with sources := s.sources.modify i fun source => { source with readyState := readyState } }

/-- `eventSourceRef.current.close()`, where there is one. -/
def closeCurrent : State :=
  match s.eventSource with
  | some i => s.setReadyState i .closed
  | none => s

def connect (mount : Nat) : State :=
  if s.isMounted mount = false then s
  else
    let s := s.closeCurrent
    { s with
      sources := s.sources ++ [⟨mount, .connecting⟩]
      eventSource := some s.sources.length }

/-- `Math.round`. -/
def round (x : ℚ) : Int := ⌊x + 1 / 2⌋

/-- The delay of the next attempt; `random` is the draw of `Math.random`. -/
def delayOf (attempts : Nat) (random : ℚ) : Int :=
  let base : ℚ := min (2 ^ attempts * baseDelayMs) maxDelayMs
  round (base + random * base * (1 / 2))

def onopen (mount i : Nat) : State :=
  let s := s.setReadyState i .opened
  if s.isMounted mount = false then s
  else { s with reconnectAttempts := 0, sseConnected := true }

/-- A message that cannot be parsed has no event. -/
def onmessage (mount now : Nat) (event : Option ServerEvent) : State :=
  if s.isMounted mount = false then s
  else
    match event with
    | some event => { s with store := dispatch now s.store event }
    | none => s

def onerror (mount i : Nat) (random : ℚ) : State :=
  if s.isMounted mount = false then s
  else
    let closed := { s.setReadyState i .closed with sseConnected := false, eventSource := none }
    let attempts := s.reconnectAttempts
    if maxReconnectAttempts ≤ attempts then closed
    else
      { closed with
        reconnectAttempts := attempts + 1
        timers := s.timers ++ [⟨s.nextTimer, mount, delayOf attempts random⟩]
        nextTimer := s.nextTimer + 1
        reconnectTimeout := some s.nextTimer }

/-- The effect. -/
def mount : State :=
  let mounted := { s with mounts := s.mounts + 1, mounted := true }
  mounted.connect (s.mounts + 1)

/-- The cleanup of the effect. -/
def unmount : State :=
  let stopped := { s with
    mounted := false
    timers := s.timers.filter fun timer => s.reconnectTimeout ≠ some timer.id }
  { stopped.closeCurrent with eventSource := none, sseConnected := false }

end State

/-- What React, the browser and the server do. -/
inductive Event where
  | mount
  | unmount
  | opened (i : Nat)
  | message (i now : Nat) (event : Option ServerEvent)
  | error (i : Nat) (random : ℚ)
  | timeout (id : Nat)

/-- An event source that is closed fires nothing; an effect runs again after its cleanup. -/
def machine : Machine State Event where
  step s
    | .mount => if s.mounted then none else some s.mount
    | .unmount => if s.mounted then some s.unmount else none
    | .opened i =>
      (s.sources[i]?.filter fun source => source.readyState ≠ .closed).map fun source =>
        s.onopen source.mount i
    | .message i now event =>
      (s.sources[i]?.filter fun source => source.readyState = .opened).map fun source =>
        s.onmessage source.mount now event
    | .error i random =>
      if 0 ≤ random ∧ random < 1 then
        (s.sources[i]?.filter fun source => source.readyState ≠ .closed).map fun source =>
          s.onerror source.mount i random
      else none
    | .timeout id =>
      (s.timers.find? fun timer => timer.id = id).map fun timer =>
        { s with timers := s.timers.filter fun timer => timer.id ≠ id }.connect timer.mount

/-! ### One stream or one timer -/

/-- The event sources that are not closed. -/
def live (s : State) : List Source := s.sources.filter fun source => source.readyState ≠ .closed

/-- A delay is at least a second and at most 45. -/
def Timely (timer : Timer) : Prop := 1000 ≤ timer.delay ∧ timer.delay ≤ 45000

/-- What is under way. -/
inductive Phase (s : State) : Prop where
  | unmounted (off : s.mounted = false) (sources : live s = []) (current : s.eventSource = none)
      (timers : s.timers = []) (connected : s.sseConnected = false)
  | streaming (on : s.mounted = true) (source : Source) (sources : live s = [source])
      (i : Nat) (current : s.eventSource = some i) (row : s.sources[i]? = some source)
      (mount : source.mount = s.mounts) (timers : s.timers = [])
      (connected : s.sseConnected = true ↔ source.readyState = .opened)
  | waiting (on : s.mounted = true) (sources : live s = []) (current : s.eventSource = none)
      (timer : Timer) (timers : s.timers = [timer]) (handle : s.reconnectTimeout = some timer.id)
      (mount : timer.mount = s.mounts) (timely : Timely timer) (connected : s.sseConnected = false)
  | givenUp (on : s.mounted = true) (sources : live s = []) (current : s.eventSource = none)
      (timers : s.timers = []) (connected : s.sseConnected = false)
      (attempts : s.reconnectAttempts = maxReconnectAttempts)

structure Sound (s : State) : Prop where
  phase : Phase s
  attempts : s.reconnectAttempts ≤ maxReconnectAttempts

/-! ### The live sources -/

section

variable {α : Type} {p : α → Bool} {l : List α} {a b : α} {i j : Nat}

theorem only_at (h : l.filter p = [a]) (hi : l[i]? = some b) (hb : p b = true) :
    b = a ∧ ∃ front back, l = front ++ a :: back ∧ front.length = i ∧ front.filter p = [] ∧
      back.filter p = [] := by
  obtain ⟨hlt, hget⟩ := List.getElem?_eq_some_iff.mp hi
  have hsplit : l = l.take i ++ b :: l.drop (i + 1) := by
    rw [← hget, ← List.drop_eq_getElem_cons hlt, List.take_append_drop]
  rw [hsplit, List.filter_append, List.filter_cons_of_pos hb] at h
  cases hfront : (l.take i).filter p with
  | nil =>
    rw [hfront, List.nil_append] at h
    obtain ⟨rfl, hback⟩ := List.cons.inj h
    exact ⟨rfl, _, _, hsplit, List.length_take_of_le (Nat.le_of_lt hlt), hfront, hback⟩
  | cons c rest =>
    rw [hfront] at h
    simp at h

theorem index_unique (h : l.filter p = [a]) (hi : l[i]? = some b) (hb : p b = true)
    (hj : l[j]? = some a) (ha : p a = true) : i = j := by
  obtain ⟨rfl, front, back, rfl, rfl, hfront, hback⟩ := only_at h hi hb
  by_contra hne
  rcases Nat.lt_or_gt_of_ne hne with hlt | hlt
  · rw [List.getElem?_append_right (by omega)] at hj
    obtain ⟨k, hk⟩ : ∃ k, j - front.length = k + 1 := ⟨j - front.length - 1, by omega⟩
    rw [hk, List.getElem?_cons_succ] at hj
    exact List.filter_eq_nil_iff.mp hback b (List.mem_of_getElem? hj) ha
  · rw [List.getElem?_append_left hlt] at hj
    exact List.filter_eq_nil_iff.mp hfront b (List.mem_of_getElem? hj) ha

theorem modify_append (front back : List α) (f : α → α) :
    (front ++ a :: back).modify front.length f = front ++ f a :: back := by
  induction front with
  | nil => rfl
  | cons c front ih => exact congrArg (c :: ·) ih

theorem filter_modify_only (h : l.filter p = [a]) (hi : l[i]? = some b) (hb : p b = true)
    (f : α → α) : (l.modify i f).filter p = [f a].filter p := by
  obtain ⟨rfl, front, back, rfl, rfl, hfront, hback⟩ := only_at h hi hb
  rw [modify_append, List.filter_append, hfront, List.nil_append, List.filter_cons, hback,
    List.filter_cons, List.filter_nil]

end

/-! ### What each event does -/

theorem timely_delayOf (attempts : Nat) {random : ℚ} (hlow : 0 ≤ random) (hhigh : random < 1)
    (id mount : Nat) : Timely ⟨id, mount, State.delayOf attempts random⟩ := by
  have hpow : (1 : ℚ) ≤ 2 ^ attempts := one_le_pow₀ (by norm_num)
  have hbase : (1000 : ℚ) ≤ min (2 ^ attempts * (baseDelayMs : ℚ)) maxDelayMs := by
    apply le_min
    · simp only [baseDelayMs]
      push_cast
      linarith
    · norm_num [maxDelayMs]
  have hbound : min (2 ^ attempts * (baseDelayMs : ℚ)) maxDelayMs ≤ 30000 :=
    (min_le_right _ _).trans (by norm_num [maxDelayMs])
  unfold Timely State.delayOf State.round
  dsimp only
  generalize min (2 ^ attempts * (baseDelayMs : ℚ)) maxDelayMs = base at hbase hbound
  have hjitter : 0 ≤ random * base := mul_nonneg hlow (by linarith)
  have hjitter' : random * base ≤ base := by nlinarith
  constructor
  · apply Int.le_floor.mpr
    push_cast
    linarith
  · apply Int.lt_add_one_iff.mp
    apply Int.floor_lt.mpr
    push_cast
    linarith

variable {s s' : State}

theorem live_setReadyState {source source' : Source} {i : Nat} (h : live s = [source])
    (hi : s.sources[i]? = some source') (hopen : source'.readyState ≠ .closed)
    (readyState : ReadyState) :
    live (s.setReadyState i readyState) =
      [{ source with readyState := readyState }].filter fun source =>
        source.readyState ≠ .closed :=
  filter_modify_only h hi (decide_eq_true hopen) _

/-- A new source, where none is live. -/
theorem phase_connect (hs : s.mounted = true) (hsources : live s = [])
    (hcurrent : s.eventSource = none) (htimers : s.timers = []) (hconnected : s.sseConnected = false) :
    Phase (s.connect s.mounts) := by
  have hmounted : s.isMounted s.mounts = true := decide_eq_true ⟨hs, rfl⟩
  have hclosed : s.closeCurrent = s := by rw [State.closeCurrent, hcurrent]
  rw [State.connect, hmounted, if_neg nofun, hclosed]
  refine .streaming hs ⟨s.mounts, .connecting⟩ ?_ s.sources.length rfl ?_ rfl htimers ?_
  · rw [live, List.filter_append]
    rw [live] at hsources
    rw [hsources]
    rfl
  · exact List.getElem?_concat_length
  · rw [hconnected]
    exact ⟨nofun, nofun⟩

theorem attempts_connect (mount : Nat) :
    (s.connect mount).reconnectAttempts = s.reconnectAttempts := by
  unfold State.connect
  split
  · rfl
  · unfold State.closeCurrent
    dsimp only
    split
    · rfl
    · rfl

theorem mem_live {i : Nat} {source : Source} (hi : s.sources[i]? = some source)
    (hopen : source.readyState ≠ .closed) : source ∈ live s :=
  List.mem_filter.mpr ⟨List.mem_of_getElem? hi, decide_eq_true hopen⟩

/-- Only a stream that is not closed fires events. -/
theorem Phase.of_live (h : Phase s) {i : Nat} {source : Source} (hi : s.sources[i]? = some source)
    (hopen : source.readyState ≠ .closed) :
    s.mounted = true ∧ live s = [source] ∧ s.eventSource = some i ∧ source.mount = s.mounts ∧
      s.timers = [] := by
  have hmem := mem_live hi hopen
  cases h with
  | unmounted off sources current timers connected =>
    rw [sources] at hmem
    cases hmem
  | streaming on source' sources j current row mount timers connected =>
    rw [sources] at hmem
    obtain rfl := List.mem_singleton.mp hmem
    obtain rfl := index_unique sources hi (decide_eq_true hopen) row (decide_eq_true hopen)
    exact ⟨on, sources, current, mount, timers⟩
  | waiting on sources current timer timers handle mount timely connected =>
    rw [sources] at hmem
    cases hmem
  | givenUp on sources current timers connected attempts =>
    rw [sources] at hmem
    cases hmem

theorem sound_mount (h : Sound s) (hoff : s.mounted = false) : Sound s.mount := by
  refine ⟨?_, ?_⟩
  · cases h.phase with
    | unmounted off sources current timers connected =>
      exact phase_connect (s := { s with mounts := s.mounts + 1, mounted := true }) rfl sources
        current timers connected
    | streaming on | waiting on | givenUp on =>
      rw [on] at hoff
      cases hoff
  · have hkept := attempts_connect (s := { s with mounts := s.mounts + 1, mounted := true })
      (s.mounts + 1)
    exact hkept.trans_le h.attempts

theorem unmount_of_none (h : s.eventSource = none) : s.unmount =
    { s with
      mounted := false
      timers := s.timers.filter fun timer => s.reconnectTimeout ≠ some timer.id
      eventSource := none
      sseConnected := false } := by
  simp only [State.unmount, State.closeCurrent, h]

theorem unmount_of_some {i : Nat} (h : s.eventSource = some i) : s.unmount =
    { s.setReadyState i .closed with
      mounted := false
      timers := s.timers.filter fun timer => s.reconnectTimeout ≠ some timer.id
      eventSource := none
      sseConnected := false } := by
  simp only [State.unmount, State.closeCurrent, State.setReadyState, h]

theorem sound_unmount (h : Sound s) : Sound s.unmount := by
  have hattempts : s.unmount.reconnectAttempts = s.reconnectAttempts := by
    unfold State.unmount State.closeCurrent
    dsimp only
    split
    · rfl
    · rfl
  refine ⟨?_, hattempts.trans_le h.attempts⟩
  cases h.phase with
  | unmounted off sources current timers connected =>
    rw [unmount_of_none current]
    exact .unmounted rfl sources rfl (by simp [timers]) rfl
  | streaming on source sources i current row mount timers connected =>
    have hopen : source.readyState ≠ .closed := by
      have hmem : source ∈ live s := by
        rw [sources]
        exact List.mem_singleton_self source
      exact of_decide_eq_true (List.mem_filter.mp hmem).2
    have hlive : live (s.setReadyState i .closed) = [] :=
      live_setReadyState sources row hopen .closed
    rw [unmount_of_some current]
    exact .unmounted rfl hlive rfl (by simp [timers]) rfl
  | waiting on sources current timer timers handle mount timely connected =>
    rw [unmount_of_none current]
    exact .unmounted rfl sources rfl (by simp [timers, handle]) rfl
  | givenUp on sources current timers connected attempts =>
    rw [unmount_of_none current]
    exact .unmounted rfl sources rfl (by simp [timers]) rfl

theorem sound_opened (h : Sound s) {i : Nat} {source : Source} (hi : s.sources[i]? = some source)
    (hopen : source.readyState ≠ .closed) : Sound (s.onopen source.mount i) := by
  obtain ⟨on, sources, current, mount, timers⟩ := h.phase.of_live hi hopen
  have hmounted : (s.setReadyState i .opened).isMounted source.mount = true :=
    decide_eq_true ⟨on, mount⟩
  rw [State.onopen, hmounted]
  refine ⟨?_, Nat.zero_le _⟩
  refine .streaming on { source with readyState := .opened } ?_ i current ?_ mount timers ?_
  · have hlive := live_setReadyState sources hi hopen .opened
    exact hlive
  · show (s.sources.modify i _)[i]? = _
    rw [List.getElem?_modify_eq, hi]
    rfl
  · exact ⟨fun _ => rfl, fun _ => rfl⟩

theorem sound_message (h : Sound s) (mount now : Nat) (event : Option ServerEvent) :
    Sound (s.onmessage mount now event) := by
  unfold State.onmessage
  split
  · exact h
  · split
    · refine ⟨?_, h.attempts⟩
      cases h.phase with
      | unmounted off sources current timers connected =>
        exact .unmounted off sources current timers connected
      | streaming on source sources i current row mount timers connected =>
        exact .streaming on source sources i current row mount timers connected
      | waiting on sources current timer timers handle mount timely connected =>
        exact .waiting on sources current timer timers handle mount timely connected
      | givenUp on sources current timers connected attempts =>
        exact .givenUp on sources current timers connected attempts
    · exact h

theorem sound_error (h : Sound s) {i : Nat} {source : Source} (hi : s.sources[i]? = some source)
    (hopen : source.readyState ≠ .closed) {random : ℚ} (hlow : 0 ≤ random) (hhigh : random < 1) :
    Sound (s.onerror source.mount i random) := by
  obtain ⟨on, sources, current, mount, timers⟩ := h.phase.of_live hi hopen
  have hmounted : s.isMounted source.mount = true := decide_eq_true ⟨on, mount⟩
  have hlive : live (s.setReadyState i .closed) = [] :=
    live_setReadyState sources hi hopen .closed
  rw [State.onerror, hmounted]
  dsimp only
  rw [if_neg nofun]
  split
  · rename_i hmax
    exact ⟨.givenUp on hlive rfl timers rfl (Nat.le_antisymm h.attempts hmax), h.attempts⟩
  · rename_i hmax
    refine ⟨?_, Nat.lt_of_not_le hmax⟩
    refine .waiting on hlive rfl ⟨s.nextTimer, source.mount, _⟩ ?_ rfl mount
      (timely_delayOf s.reconnectAttempts hlow hhigh _ _) rfl
    show s.timers ++ [_] = [_]
    rw [timers]
    rfl

theorem sound_timeout (h : Sound s) {id : Nat} {timer : Timer}
    (hfind : (s.timers.find? fun timer => timer.id = id) = some timer) :
    Sound ({ s with timers := s.timers.filter fun timer => timer.id ≠ id }.connect timer.mount) := by
  have hmem := List.mem_of_find?_eq_some hfind
  have hid : timer.id = id := of_decide_eq_true (List.find?_some hfind :)
  refine ⟨?_, (attempts_connect timer.mount).trans_le h.attempts⟩
  cases h.phase with
  | waiting on sources current timer' timers handle mount timely connected =>
    rw [timers] at hmem
    obtain rfl := List.mem_singleton.mp hmem
    rw [mount]
    refine phase_connect (s := { s with timers := _ }) on sources current ?_ connected
    show s.timers.filter _ = []
    simp [timers, hid]
  | unmounted off sources current timers connected =>
    rw [timers] at hmem
    cases hmem
  | streaming on source sources i current row mount timers connected =>
    rw [timers] at hmem
    cases hmem
  | givenUp on sources current timers connected attempts =>
    rw [timers] at hmem
    cases hmem

/-! ### Runs -/

theorem sound_initial (store : Store) : Sound (State.initial store) :=
  ⟨.unmounted rfl rfl rfl rfl rfl, Nat.zero_le _⟩

theorem sound_step {e : Event} (h : Sound s) (hstep : machine.step s e = some s') : Sound s' := by
  cases e with
  | mount =>
    simp only [machine] at hstep
    split at hstep
    · cases hstep
    · rename_i hoff
      obtain rfl := Option.some.inj hstep
      exact sound_mount h (Bool.eq_false_iff.mpr hoff)
  | unmount =>
    simp only [machine] at hstep
    split at hstep
    · obtain rfl := Option.some.inj hstep
      exact sound_unmount h
    · cases hstep
  | opened i =>
    obtain ⟨source, hsource, rfl⟩ := Option.map_eq_some_iff.mp hstep
    obtain ⟨hi, hopen⟩ := Option.filter_eq_some_iff.mp hsource
    exact sound_opened h hi (of_decide_eq_true hopen)
  | message i now event =>
    obtain ⟨source, -, rfl⟩ := Option.map_eq_some_iff.mp hstep
    exact sound_message h source.mount now event
  | error i random =>
    simp only [machine] at hstep
    split at hstep
    · rename_i hrandom
      obtain ⟨source, hsource, rfl⟩ := Option.map_eq_some_iff.mp hstep
      obtain ⟨hi, hopen⟩ := Option.filter_eq_some_iff.mp hsource
      exact sound_error h hi (of_decide_eq_true hopen) hrandom.1 hrandom.2
    · cases hstep
  | timeout id =>
    obtain ⟨timer, hfind, rfl⟩ := Option.map_eq_some_iff.mp hstep
    exact sound_timeout h hfind

/-- Whatever React, the browser and the server do, there is at most one stream or timer; while the
hook is mounted there is one until twenty attempts in a row have failed, and afterwards none. -/
theorem one_stream_or_timer {store : Store} {trace : List Event}
    (hrun : machine.run (State.initial store) trace = some s) :
    (live s).length + s.timers.length ≤ 1 ∧
      (s.mounted = true → s.reconnectAttempts < maxReconnectAttempts →
        (live s).length + s.timers.length = 1) ∧
      (s.mounted = false → live s = [] ∧ s.timers = []) ∧
      (s.sseConnected = true ↔ ∃ source ∈ live s, source.readyState = .opened) ∧
      ∀ timer ∈ s.timers, Timely timer := by
  have hsound : Sound s :=
    Machine.invariant_of_run (fun s e s' h hstep => sound_step h hstep) (sound_initial store) hrun
  cases hsound.phase with
  | unmounted off sources current timers connected =>
    simp [sources, timers, connected, off]
  | streaming on source sources i current row mount timers connected =>
    simp [sources, timers, connected, on]
  | waiting on sources current timer timers handle mount timely connected =>
    simp [sources, timers, connected, on, timely]
  | givenUp on sources current timers connected attempts =>
    simp [sources, timers, connected, on, attempts]

/-! ### Giving up -/

/-- The sources that there are or may still be made before one opens. -/
def potential (s : State) : Nat :=
  s.sources.length + s.timers.length + (maxReconnectAttempts - s.reconnectAttempts)

/-- Neither is a source opened nor the hook mounted. -/
def Failing : Event → Prop
  | .mount | .opened _ => False
  | _ => True

theorem potential_closeCurrent : potential s.closeCurrent = potential s := by
  unfold State.closeCurrent
  split
  · simp [potential, State.setReadyState]
  · rfl

theorem potential_connect (mount : Nat) : potential (s.connect mount) ≤ potential s + 1 := by
  unfold State.connect
  split
  · exact Nat.le_succ _
  · have hkept := potential_closeCurrent (s := s)
    simp only [potential, List.length_append, List.length_singleton] at hkept ⊢
    omega

theorem potential_step {e : Event} (hfailing : Failing e) (hstep : machine.step s e = some s') :
    potential s' ≤ potential s := by
  cases e with
  | mount => exact hfailing.elim
  | opened i => exact hfailing.elim
  | unmount =>
    simp only [machine] at hstep
    split at hstep
    · obtain rfl := Option.some.inj hstep
      have hless := List.length_filter_le
        (fun timer : Timer => decide (s.reconnectTimeout ≠ some timer.id)) s.timers
      have hkept := potential_closeCurrent (s := { s with
        mounted := false
        timers := s.timers.filter fun timer => s.reconnectTimeout ≠ some timer.id })
      show potential (State.closeCurrent _) ≤ potential s
      rw [hkept]
      simp only [potential]
      omega
    · cases hstep
  | message i now event =>
    obtain ⟨source, -, rfl⟩ := Option.map_eq_some_iff.mp hstep
    unfold State.onmessage
    split
    · exact Nat.le_refl _
    · split
      · exact Nat.le_refl _
      · exact Nat.le_refl _
  | error i random =>
    simp only [machine] at hstep
    split at hstep
    · obtain ⟨source, -, rfl⟩ := Option.map_eq_some_iff.mp hstep
      unfold State.onerror
      split
      · exact Nat.le_refl _
      · dsimp only
        split
        · simp [potential, State.setReadyState]
        · simp only [potential, State.setReadyState, List.length_modify, List.length_append,
            List.length_singleton]
          omega
    · cases hstep
  | timeout id =>
    obtain ⟨timer, hfind, rfl⟩ := Option.map_eq_some_iff.mp hstep
    have hmem := List.mem_of_find?_eq_some hfind
    have hid : timer.id = id := of_decide_eq_true (List.find?_some hfind :)
    have hless : (s.timers.filter fun timer => timer.id ≠ id).length < s.timers.length :=
      List.length_filter_lt_length_iff_exists.mpr ⟨timer, hmem, by simp [hid]⟩
    refine (potential_connect timer.mount).trans ?_
    simp only [potential]
    omega

/-- The first stream fails, and so does the one that the timer makes. -/
def twoFailures : List Event := [.error 0 0, .timeout 0, .error 1 (1 / 2), .timeout 1]

theorem twoFailures_one_stream :
    ∃ s, machine.run (State.initial .empty) (.mount :: twoFailures) = some s ∧
      (live s).length + s.timers.length ≤ 1 := by
  obtain ⟨s, hrun⟩ := Option.isSome_iff_exists.mp
    (by decide +kernel :
      (machine.run (State.initial .empty) (.mount :: twoFailures)).isSome = true)
  exact ⟨s, hrun, (one_stream_or_timer hrun).1⟩

end MissionControl.Client.ServerEvents
