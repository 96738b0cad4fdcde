import MissionControl.DataRooms.Routes

/-!
How often one peer may try to enter. The limiter counts by the first address of the header in
which a proxy appends the address of its peer, and the peer chooses that first address itself.
-/

set_option autoImplicit false
set_option relaxedAutoImplicit false

namespace MissionControl.DataRooms.EntryLimit

open MissionControl.Foundations.JsText
open MissionControl.Foundations.Query
open MissionControl.Foundations.Transition (Machine)
open Rooms Routes

/-! ### Requests of one peer -/

/-- The header behind a proxy that appends the address of its peer. -/
def appendPeer (peer : String) : Option String → String
  | none => peer
  | some supplied => supplied ++ ", " ++ peer

/-- A minute for which the peer's requests are counted, and what they are counted under. -/
structure Window where
  ip : String
  resetAt : Nat
  /-- The requests that the limiter has let through, to the link and its passcode. -/
  passed : Nat
  deriving DecidableEq

/-- The data rooms, and the window that was opened last for the peer. -/
structure Watched where
  world : World
  window : Option Window
  deriving DecidableEq

inductive PeerEvent where
  /-- The peer asks to enter, with a header of its own or without. -/
  | request (token : String) (supplied userAgent : Option String)
  /-- Anything else than a request to enter. -/
  | other (e : Event)
  deriving DecidableEq

def tooMany : Reply := .refused 429 "Too many requests"

/-- The window of a request: the last one, unless that is over. -/
def currentWindow (window : Option Window) (now : Nat) (ip : String) : Window :=
  match window with
  | none => ⟨ip, now + 60000, 0⟩
  | some v => if now ≤ v.resetAt then v else ⟨ip, now + 60000, 0⟩

def watchRequest (s : Watched) (peer token : String) (supplied userAgent : Option String) :
    Watched :=
  let forwardedFor := appendPeer peer supplied
  let (w, reply) := beginEnter s.world token (some forwardedFor) userAgent
  let window := currentWindow s.window s.world.tables.now (clientIp (some forwardedFor))
  ⟨w, some (if reply = tooMany then window else { window with passed := window.passed + 1 })⟩

def peerMachine (order : FirstBy LatestEvent) (peer : String) : Machine Watched PeerEvent where
  step s
    | .request token supplied userAgent => some (watchRequest s peer token supplied userAgent)
    | .other (.beginEnter ..) => none
    | .other e => ((machine order).step s.world e).map fun w => { s with world := w }

/-- At most ten requests of a window come past the limiter. -/
def Bounded (s : Watched) : Prop := ∀ v, s.window = some v → v.passed ≤ 10

/-- The request begins with the address that the open window counts. -/
def SameAddress (peer : String) (s : Watched) : PeerEvent → Prop
  | .request _ supplied _ =>
    ∀ v ∈ s.window, s.world.tables.now ≤ v.resetAt →
      clientIp (some (appendPeer peer supplied)) = v.ip
  | .other _ => True

instance decidableSameAddress (peer : String) (s : Watched) :
    ∀ e, Decidable (SameAddress peer s e)
  | .request _ supplied _ => inferInstanceAs (Decidable (∀ v ∈ s.window,
      s.world.tables.now ≤ v.resetAt → clientIp (some (appendPeer peer supplied)) = v.ip))
  | .other _ => inferInstanceAs (Decidable True)

/-! ### The limiter -/

variable {order : FirstBy LatestEvent} {peer : String} {s s' : Watched}
  {limits : List (String × RateLimitEntry)} {ip : String}

theorem rateLimitEntry_set (entry : RateLimitEntry) :
    rateLimitEntry (setRateLimitEntry limits ip entry) ip = some entry := by
  have hnone : (limits.filter fun e => e.1 ≠ ip).find? (fun e => e.1 = ip) = none := by
    rw [List.find?_eq_none]
    intro e he heq
    exact of_decide_eq_true (List.mem_filter.mp he).2 (of_decide_eq_true heq)
  rw [rateLimitEntry, setRateLimitEntry, List.find?_append, hnone, Option.none_or]
  simp only [List.find?_cons, decide_true, Option.map_some]

theorem mem_setRateLimitEntry {entry : RateLimitEntry} {e : String × RateLimitEntry}
    (h : e ∈ setRateLimitEntry limits ip entry) : e ∈ limits ∨ e = (ip, entry) := by
  rcases List.mem_append.mp h with hold | hnew
  · exact .inl (List.mem_of_mem_filter hold)
  · exact .inr (List.mem_singleton.mp hnew)

theorem mem_of_rateLimitEntry {entry : RateLimitEntry} (h : rateLimitEntry limits ip = some entry) :
    (ip, entry) ∈ limits := by
  obtain ⟨e, he, rfl⟩ := Option.map_eq_some_iff.mp h
  have hip : e.1 = ip := of_decide_eq_true (List.find?_some he :)
  rw [← hip]
  exact List.mem_of_find?_eq_some he

/-- A minute begins when the last one that the address was counted in is over. -/
theorem checkRateLimit_expired {now : Nat} (hexpired : ∀ e ∈ limits, e.2.resetAt < now) :
    checkRateLimit limits now ip = (setRateLimitEntry limits ip ⟨1, now + 60000⟩, true) := by
  rw [checkRateLimit]
  cases hentry : rateLimitEntry limits ip with
  | none => rfl
  | some entry =>
    dsimp only
    rw [if_pos (hexpired _ (mem_of_rateLimitEntry hentry))]

theorem checkRateLimit_open {now : Nat} {entry : RateLimitEntry}
    (hentry : rateLimitEntry limits ip = some entry) (hopen : now ≤ entry.resetAt) :
    checkRateLimit limits now ip =
      (setRateLimitEntry limits ip { entry with count := entry.count + 1 },
        decide (entry.count + 1 ≤ 10)) := by
  rw [checkRateLimit, hentry]
  dsimp only
  rw [if_neg (Nat.not_lt.mpr hopen)]

theorem openRoom_ne_tooMany {t : Tables} {token : String} {reply : Reply}
    (h : openRoom t token = .error reply) : reply ≠ tooMany := by
  rintro rfl
  rw [openRoom] at h
  split at h
  · cases h
  · split at h
    · cases h
    · split at h
      · cases h
      · split at h
        · cases h
        · split at h
          · cases h
          · cases h

/-- What a request to enter does to the limiter, and when the limiter refuses it. -/
theorem beginEnter_limits (w : World) (token : String) (forwardedFor userAgent : Option String) :
    let checked := checkRateLimit w.rateLimitMap w.tables.now (clientIp forwardedFor)
    (beginEnter w token forwardedFor userAgent).1.rateLimitMap = checked.1 ∧
      (beginEnter w token forwardedFor userAgent).1.tables = w.tables ∧
      ((beginEnter w token forwardedFor userAgent).2 = tooMany ↔ checked.2 = false) := by
  intro checked
  rw [beginEnter]
  dsimp only
  by_cases hallowed : checked.2 = false
  · rw [if_pos hallowed]
    exact ⟨rfl, rfl, fun _ => hallowed, fun _ => rfl⟩
  · rw [if_neg hallowed]
    cases hroom : openRoom w.tables token with
    | error reply =>
      exact ⟨rfl, rfl, fun h => absurd h (openRoom_ne_tooMany hroom), fun h => absurd h hallowed⟩
    | ok found =>
      exact ⟨rfl, rfl, nofun, fun h => absurd h hallowed⟩

theorem limits_of_step {w w' : World} {e : Event} (hstep : (machine order).step w e = some w')
    (hother : ∀ token forwardedFor userAgent, e ≠ .beginEnter token forwardedFor userAgent) :
    w'.rateLimitMap = w.rateLimitMap := by
  cases e with
  | beginEnter token forwardedFor userAgent => exact absurd rfl (hother token forwardedFor userAgent)
  | finishEnter i body sessionToken notified =>
    obtain ⟨result, hresult, rfl⟩ := Option.map_eq_some_iff.mp hstep
    obtain ⟨e, -, rfl⟩ := Option.map_eq_some_iff.mp hresult
    rfl
  | finishReport i body =>
    obtain ⟨result, hresult, rfl⟩ := Option.map_eq_some_iff.mp hstep
    obtain ⟨r, -, rfl⟩ := Option.map_eq_some_iff.mp hresult
    rfl
  | beginReport token cookie =>
    obtain rfl := Option.some.inj hstep
    have hbegun : (beginReport w token cookie).1.rateLimitMap = w.rateLimitMap := by
      rw [beginReport]
      split
      · rfl
      · split
        · rfl
        · split
          · rfl
          · split
            · rfl
            · split
              · rfl
              · rfl
    exact hbegun
  | _ =>
    obtain rfl := Option.some.inj hstep
    rfl

/-! ### Windows -/

/-- The limiter counts the peer's open window under its address, and has closed all others. -/
def Counted (s : Watched) : Prop :=
  match s.window with
  | none => s.world.rateLimitMap = []
  | some v =>
    (∃ entry, rateLimitEntry s.world.rateLimitMap v.ip = some entry ∧ entry.resetAt = v.resetAt ∧
      v.passed = min entry.count 10) ∧
    ∀ e ∈ s.world.rateLimitMap, e.2.resetAt ≤ v.resetAt

theorem Counted.bounded (h : Counted s) : Bounded s := by
  intro v hv
  rw [Counted, hv] at h
  obtain ⟨⟨entry, -, -, hpassed⟩, -⟩ := h
  rw [hpassed]
  exact Nat.min_le_right _ _

/-- A request belongs to the open window, or opens one when the last one is over. -/
theorem currentWindow_cases (h : Counted s) (now : Nat) (ip : String) :
    (∃ v, s.window = some v ∧ now ≤ v.resetAt ∧ currentWindow s.window now ip = v) ∨
      (currentWindow s.window now ip = ⟨ip, now + 60000, 0⟩ ∧
        ∀ e ∈ s.world.rateLimitMap, e.2.resetAt < now) := by
  rw [Counted] at h
  cases hwindow : s.window with
  | none =>
    rw [hwindow] at h
    refine .inr ⟨rfl, ?_⟩
    rw [h]
    exact fun e he => absurd he List.not_mem_nil
  | some v =>
    rw [hwindow] at h
    by_cases hopen : now ≤ v.resetAt
    · exact .inl ⟨v, rfl, hopen, if_pos hopen⟩
    · refine .inr ⟨if_neg hopen, ?_⟩
      intro e he
      have hle := h.2 e he
      omega

theorem Counted.request (h : Counted s) {token : String} {supplied userAgent : Option String}
    (hsame : SameAddress peer s (.request token supplied userAgent)) :
    Counted (watchRequest s peer token supplied userAgent) := by
  obtain ⟨hlimits, -, htooMany⟩ :=
    beginEnter_limits s.world token (some (appendPeer peer supplied)) userAgent
  rw [SameAddress] at hsame
  rw [watchRequest]
  dsimp only
  generalize clientIp (some (appendPeer peer supplied)) = ip at hlimits htooMany hsame ⊢
  rw [Counted]
  dsimp only
  rw [hlimits]
  rcases currentWindow_cases h s.world.tables.now ip with
    ⟨v, hwindow, hopen, hcurrent⟩ | ⟨hcurrent, hexpired⟩
  · obtain rfl : ip = v.ip := hsame v hwindow hopen
    rw [Counted, hwindow] at h
    obtain ⟨⟨entry, hentry, hreset, hcount⟩, hall⟩ := h
    have hchecked : checkRateLimit s.world.rateLimitMap s.world.tables.now v.ip =
        (setRateLimitEntry s.world.rateLimitMap v.ip { entry with count := entry.count + 1 },
          decide (entry.count + 1 ≤ 10)) := by
      apply checkRateLimit_open
      · exact hentry
      · rw [hreset]
        exact hopen
    have hmem : ∀ e ∈ setRateLimitEntry s.world.rateLimitMap v.ip
        { entry with count := entry.count + 1 }, e.2.resetAt ≤ v.resetAt := by
      intro e he
      rcases mem_setRateLimitEntry he with hold | rfl
      · exact hall e hold
      · exact hreset.le
    rw [hchecked] at htooMany ⊢
    rw [hcurrent]
    by_cases hfull : entry.count + 1 ≤ 10
    · have hpassed : ¬ (beginEnter s.world token (some (appendPeer peer supplied)) userAgent).2 =
          tooMany := by
        rw [htooMany, decide_eq_true hfull]
        exact Bool.true_eq_false.mp
      rw [if_neg hpassed]
      refine ⟨⟨_, rateLimitEntry_set _, hreset, ?_⟩, hmem⟩
      dsimp only
      omega
    · have hrefused : (beginEnter s.world token (some (appendPeer peer supplied)) userAgent).2 =
          tooMany := by
        rw [htooMany, decide_eq_false hfull]
      rw [if_pos hrefused]
      refine ⟨⟨_, rateLimitEntry_set _, hreset, ?_⟩, hmem⟩
      dsimp only
      omega
  · have hchecked := @checkRateLimit_expired _ ip _ hexpired
    rw [hchecked] at htooMany ⊢
    have hpassed : ¬ (beginEnter s.world token (some (appendPeer peer supplied)) userAgent).2 =
        tooMany := by
      rw [htooMany]
      exact Bool.true_eq_false.mp
    rw [if_neg hpassed, hcurrent]
    refine ⟨⟨_, rateLimitEntry_set _, rfl, rfl⟩, ?_⟩
    intro e he
    rcases mem_setRateLimitEntry he with hold | rfl
    · have hlt := hexpired e hold
      dsimp only
      omega
    · exact le_rfl

/-- The step lemma. -/
theorem Counted.step (h : Counted s) {e : PeerEvent} (hsame : SameAddress peer s e)
    (hstep : (peerMachine order peer).step s e = some s') : Counted s' := by
  cases e with
  | request token supplied userAgent =>
    obtain rfl := Option.some.inj hstep
    exact h.request hsame
  | other e =>
    have hmap : (∀ token forwardedFor userAgent, e ≠ .beginEnter token forwardedFor userAgent) ∧
        ((machine order).step s.world e).map (fun w => { s with world := w }) = some s' := by
      cases e with
      | beginEnter token forwardedFor userAgent => cases hstep
      | _ => exact ⟨nofun, hstep⟩
    obtain ⟨hother, hmap⟩ := hmap
    obtain ⟨w', hperformed, rfl⟩ := Option.map_eq_some_iff.mp hmap
    have hlimits := limits_of_step hperformed hother
    rw [Counted] at h ⊢
    dsimp only
    rw [hlimits]
    exact h

/-- In every history of one peer whose requests begin with the address that its open window
counts, at most ten requests of each window come past the limiter. -/
theorem entries_bounded (order : FirstBy LatestEvent) (peer : String) (now : Nat)
    {trace : List PeerEvent}
    (hmeets : (peerMachine order peer).Meets (SameAddress peer) ⟨World.empty now, none⟩ trace) :
    (peerMachine order peer).Always Bounded ⟨World.empty now, none⟩ trace := by
  rintro front back s rfl hr
  have hcounted : Counted s :=
    Machine.run_invariant (fun _ _ _ h hsame hstep => h.step hsame hstep)
      (show Counted ⟨World.empty now, none⟩ from rfl) hmeets.append_left hr
  exact hcounted.bounded

/-! ### Eleven guesses in one minute -/

def byTime : FirstBy LatestEvent := FirstBy.first (sorts_by_key DataRoomEvent.createdAt).reverse

/-- A link with a passcode. -/
def passcodeLink : List PeerEvent :=
  [.other (.createRoom 1 "Deal" "deal"), .other (.postLink 1 (some "secret") false none "token")]

/-- A peer without a header of its own. -/
def patient : List PeerEvent := passcodeLink ++ List.replicate 12 (.request "token" none none)

theorem entries_bounded_patient :
    (peerMachine byTime "198.51.100.7").Always Bounded ⟨World.empty 0, none⟩ patient :=
  entries_bounded byTime "198.51.100.7" 0 (by decide +kernel)

/-- A peer that begins every header with another address. -/
def impatient : List PeerEvent :=
  passcodeLink ++ (List.range 11).map fun n => .request "token" (some (toString n)) none

def guess : EnterRoom := ⟨"guest@example.com", "", "", some "0000"⟩

/-- Eleven requests of one window come to the comparison with the passcode. -/
theorem guesses_unbounded :
    ¬ (peerMachine byTime "198.51.100.7").Always Bounded ⟨World.empty 0, none⟩ impatient ∧
    ((peerMachine byTime "198.51.100.7").run ⟨World.empty 0, none⟩ impatient).any (fun s =>
      s.window.map Window.passed = some 11 ∧ s.world.entering.length = 11 ∧
        ∀ e ∈ s.world.entering, (finishEnter s.world.tables e (.parsed guess) "session" true).2.1 =
          .refused 403 "Invalid passcode") = true := by
  have hreached : ((peerMachine byTime "198.51.100.7").run ⟨World.empty 0, none⟩ impatient).any
      (fun s => s.window.map Window.passed = some 11 ∧ s.world.entering.length = 11 ∧
        ∀ e ∈ s.world.entering, (finishEnter s.world.tables e (.parsed guess) "session" true).2.1 =
          .refused 403 "Invalid passcode") = true := by
    decide +kernel
  refine ⟨?_, hreached⟩
  intro h
  obtain ⟨s, hr, hfacts⟩ := (Option.any_eq_true _ _).mp hreached
  obtain ⟨v, hv, hpassed⟩ := Option.map_eq_some_iff.mp (of_decide_eq_true hfacts).1
  have hle := h impatient [] s (List.append_nil _).symm hr v hv
  omega

end MissionControl.DataRooms.EntryLimit
