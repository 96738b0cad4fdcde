import Mathlib.Algebra.Order.Field.Rat
import Mathlib.Algebra.Order.Floor.Ring
import Mathlib.Data.Rat.Floor
import Mathlib.Tactic.Linarith
import MissionControl.Foundations.FixedWindows
import MissionControl.Foundations.JsText
import MissionControl.Foundations.Transition

/-!
The rate limiters. A limiter counts the requests of a client from one on, until the time that it
then sets; in between, a timer removes the counts that are over.
-/

set_option autoImplicit false
set_option relaxedAutoImplicit false

namespace MissionControl.Limits.RateLimiter

open MissionControl.Foundations.JsText
open MissionControl.Foundations.Transition (Machine)

structure RateLimitEntry where
  count : Nat
  resetAt : Rat
  deriving DecidableEq

structure RateLimiterOptions where
  windowMs : Rat
  maxRequests : Rat
  message : Option String
  critical : Option Bool
  deriving DecidableEq

/-- The variables of the environment. -/
structure Environment where
  mcTrustedProxies : Option String
  mcDisableRateLimit : Option String
  deriving DecidableEq

structure Request where
  xForwardedFor : Option String
  xRealIp : Option String
  deriving DecidableEq

/-- `text.split(',').map(s => s.trim())`. -/
def splitTrimmed (text : String) : List String :=
  (text.toList.splitOn ',').map fun part => trim (String.ofList part)

/-- `TRUSTED_PROXIES`. -/
def trustedProxies (env : Environment) : List String :=
  (splitTrimmed (env.mcTrustedProxies.getD "")).filter (· ≠ "")

def extractClientIp (env : Environment) (request : Request) : String :=
  let fallback := orElse (trim (request.xRealIp.getD "")) "unknown"
  match truthy request.xForwardedFor with
  | none => fallback
  | some xff =>
    if trustedProxies env = [] then fallback
    else ((splitTrimmed xff).reverse.find? fun ip => ip ∉ trustedProxies env).getD fallback

/-- The map of a limiter. -/
abbrev Store := String → Option RateLimitEntry

/-- What the timer does every minute. -/
def cleanup (store : Store) (now : Rat) : Store :=
  fun key => (store key).filter fun entry => ¬ now > entry.resetAt

structure Response where
  status : Nat
  error : String
  deriving DecidableEq

def tooMany (options : RateLimiterOptions) : Response :=
  ⟨429, orElse (options.message.getD "") "Too many requests. Please try again later."⟩

/-- The limiter is not asked, as the environment disables it and it is not a critical one. -/
def Disabled (env : Environment) (options : RateLimiterOptions) : Prop :=
  env.mcDisableRateLimit = some "1" ∧ options.critical.getD false = false

instance decidableDisabled (env : Environment) (options : RateLimiterOptions) :
    Decidable (Disabled env options) :=
  inferInstanceAs (Decidable (_ ∧ _))

def checkRateLimit (env : Environment) (options : RateLimiterOptions) (store : Store) (now : Rat)
    (request : Request) : Store × Option Response :=
  if Disabled env options then (store, none)
  else
    let ip := extractClientIp env request
    let opened := Function.update store ip (some ⟨1, now + options.windowMs⟩)
    match store ip with
    | none => (opened, none)
    | some entry =>
      if now > entry.resetAt then (opened, none)
      else
        let entry := { entry with count := entry.count + 1 }
        (Function.update store ip (some entry),
          if (entry.count : Rat) > options.maxRequests then some (tooMany options) else none)

/-! ### Histories -/

/-- A request that the limiter has answered; `none` lets it through. -/
structure Answer where
  ip : String
  now : Rat
  response : Option Response
  deriving DecidableEq

def Answer.passed (a : Answer) : Bool := a.response.isNone

structure State where
  store : Store
  now : Rat
  answers : List Answer

inductive Event where
  | request (now : Rat) (request : Request)
  | cleanup (now : Rat)
  deriving DecidableEq

def Event.isRequest : Event → Bool
  | .request .. => true
  | .cleanup _ => false

def State.start (now : Rat) : State := ⟨fun _ => none, now, []⟩

def serve (env : Environment) (options : RateLimiterOptions) (s : State) (now : Rat)
    (request : Request) : State :=
  let checked := checkRateLimit env options s.store now request
  ⟨checked.1, now, s.answers ++ [⟨extractClientIp env request, now, checked.2⟩]⟩

/-- The clock does not go back. -/
def machine (env : Environment) (options : RateLimiterOptions) : Machine State Event where
  step s
    | .request now request => if s.now ≤ now then some (serve env options s now request) else none
    | .cleanup now =>
      if s.now ≤ now then some { s with store := cleanup s.store now, now := now } else none

end MissionControl.Limits.RateLimiter

/-!
How many requests of a client a limiter lets through. A client's requests fall into windows, each
from a request that no window is open for; a limiter answers by the place of a request in its
window, whatever the timer has removed.
-/

namespace MissionControl.Limits.Bounds

open MissionControl.Foundations.FixedWindows
open MissionControl.Foundations.Transition (Machine)
open RateLimiter

/-! ### Windows of a client -/

def ofClient (answers : List Answer) (ip : String) : List Answer :=
  answers.filter fun a => a.ip = ip

def clientWindows (options : RateLimiterOptions) (answers : List Answer) (ip : String) :
    List (Window Answer) :=
  windows Answer.now options.windowMs (ofClient answers ip)

/-- The number that the next request has among those of its window, from 1 on. -/
def placeOf (options : RateLimiterOptions) (answers : List Answer) (ip : String) (now : Rat) : Nat :=
  match clientWindows options answers ip with
  | [] => 1
  | w :: _ => if now ≤ w.first.now + options.windowMs then w.entries.length + 1 else 1

def responseAt (options : RateLimiterOptions) (place : Nat) : Option Response :=
  if (place : Rat) > options.maxRequests then some (tooMany options) else none

/-- The entry of a client for the latest of its windows. -/
def entryOf (options : RateLimiterOptions) (w : Window Answer) : RateLimitEntry :=
  ⟨w.entries.length, w.first.now + options.windowMs⟩

/-- The map has an entry for the latest window, unless that is over. -/
def Tracks (options : RateLimiterOptions) (ws : List (Window Answer))
    (entry : Option RateLimitEntry) (now : Rat) : Prop :=
  match ws with
  | [] => entry = none
  | w :: _ => entry = some (entryOf options w) ∨
      entry = none ∧ w.first.now + options.windowMs < now

/-- The answers in a window are by their places in it. -/
def Decided (options : RateLimiterOptions) (w : Window Answer) : Prop :=
  ∀ i a, w.entries[i]? = some a → a.response = responseAt options (i + 1)

/-- The answers come in the order of time, and the map has what decides the next ones. -/
structure Kept (options : RateLimiterOptions) (s : State) : Prop where
  sorted : s.answers.Pairwise fun a b => a.now ≤ b.now
  past : ∀ a ∈ s.answers, a.now ≤ s.now
  tracks : ∀ ip, Tracks options (clientWindows options s.answers ip) (s.store ip) s.now
  decided : ∀ ip, ∀ w ∈ clientWindows options s.answers ip, Decided options w

variable {env : Environment} {options : RateLimiterOptions} {s s' : State}

theorem clientWindows_snoc (answers : List Answer) (a : Answer) :
    clientWindows options (answers ++ [a]) a.ip =
      enter Answer.now options.windowMs (clientWindows options answers a.ip) a := by
  simp [clientWindows, ofClient]

theorem clientWindows_snoc_of_ne (answers : List Answer) {a : Answer} {ip : String}
    (hne : a.ip ≠ ip) :
    clientWindows options (answers ++ [a]) ip = clientWindows options answers ip := by
  simp [clientWindows, ofClient, hne]

/-! ### One request -/

theorem checkRateLimit_new (hactive : ¬ Disabled env options) {store : Store} {now : Rat}
    {request : Request}
    (hover : ∀ entry ∈ store (extractClientIp env request), entry.resetAt < now) :
    checkRateLimit env options store now request =
      (Function.update store (extractClientIp env request) (some ⟨1, now + options.windowMs⟩),
        none) := by
  simp only [checkRateLimit, if_neg hactive]
  cases hentry : store (extractClientIp env request) with
  | none => rfl
  | some entry => exact if_pos (hover entry hentry)

theorem checkRateLimit_open (hactive : ¬ Disabled env options) {store : Store} {now : Rat}
    {request : Request} {entry : RateLimitEntry}
    (hentry : store (extractClientIp env request) = some entry) (hopen : now ≤ entry.resetAt) :
    checkRateLimit env options store now request =
      (Function.update store (extractClientIp env request)
        (some { entry with count := entry.count + 1 }), responseAt options (entry.count + 1)) := by
  simp only [checkRateLimit, if_neg hactive, hentry]
  exact if_neg (not_lt.mpr hopen)

/-- What a request does, by the windows of its client: it falls into the latest one, or it begins
one. -/
theorem check_cases (hactive : ¬ Disabled env options) (h : Kept options s) {now : Rat}
    (hnow : s.now ≤ now) (request : Request) :
    let ip := extractClientIp env request
    let checked := checkRateLimit env options s.store now request
    (∃ w ws, clientWindows options s.answers ip = w :: ws ∧
        now ≤ w.first.now + options.windowMs ∧
        placeOf options s.answers ip now = w.entries.length + 1 ∧
        checked.1 = Function.update s.store ip
          (some ⟨w.entries.length + 1, w.first.now + options.windowMs⟩) ∧
        checked.2 = responseAt options (w.entries.length + 1)) ∨
      ((∀ w ws, clientWindows options s.answers ip = w :: ws →
          w.first.now + options.windowMs < now) ∧
        placeOf options s.answers ip now = 1 ∧
        checked.1 = Function.update s.store ip (some ⟨1, now + options.windowMs⟩) ∧
        checked.2 = none) := by
  intro ip checked
  have htracks := h.tracks ip
  unfold Tracks at htracks
  unfold placeOf
  cases hws : clientWindows options s.answers ip with
  | nil =>
    rw [hws] at htracks
    have hchecked : checked = _ := checkRateLimit_new hactive (by
      intro entry hentry
      rw [Option.mem_def] at hentry
      exact absurd (htracks.symm.trans hentry) (by simp))
    rw [hchecked]
    exact .inr ⟨by simp, rfl, rfl, rfl⟩
  | cons w ws =>
    rw [hws] at htracks
    by_cases hopen : now ≤ w.first.now + options.windowMs
    · have hentry : s.store ip = some (entryOf options w) :=
        htracks.resolve_right fun hover => absurd (hnow.trans hopen) (not_le.mpr hover.2)
      have hchecked : checked = _ := checkRateLimit_open hactive hentry hopen
      rw [hchecked]
      exact .inl ⟨w, ws, rfl, hopen, if_pos hopen, rfl, rfl⟩
    · have hchecked : checked = _ := checkRateLimit_new hactive (by
        intro entry hentry
        rcases htracks with hsame | ⟨hnone, -⟩
        · obtain rfl := Option.some.inj (hsame.symm.trans hentry)
          exact not_le.mp hopen
        · exact absurd (hnone.symm.trans hentry) (by simp))
      rw [hchecked]
      refine .inr ⟨?_, if_neg hopen, rfl, rfl⟩
      rintro w' ws' hsame
      obtain ⟨rfl, -⟩ := List.cons.inj hsame
      exact not_le.mp hopen

theorem responseAt_one (hmax : 1 ≤ options.maxRequests) : responseAt options 1 = none := by
  rw [responseAt, if_neg]
  exact not_lt.mpr (by exact_mod_cast hmax)

/-- A request is answered by its place in the window. -/
theorem checkRateLimit_place (hactive : ¬ Disabled env options) (hmax : 1 ≤ options.maxRequests)
    (h : Kept options s) {now : Rat} (hnow : s.now ≤ now) (request : Request) :
    (checkRateLimit env options s.store now request).2 =
      responseAt options (placeOf options s.answers (extractClientIp env request) now) := by
  rcases check_cases hactive h hnow request with
    ⟨w, ws, -, -, hplace, -, hresponse⟩ | ⟨-, hplace, -, hresponse⟩
  · rw [hresponse, hplace]
  · rw [hresponse, hplace, responseAt_one hmax]

/-! ### Histories -/

theorem Kept.start (options : RateLimiterOptions) (now : Rat) : Kept options (State.start now) :=
  ⟨List.Pairwise.nil, by simp [State.start], fun _ => rfl, by simp [State.start, clientWindows,
    ofClient]⟩

theorem Tracks.later {ws : List (Window Answer)} {entry : Option RateLimitEntry} {now now' : Rat}
    (h : Tracks options ws entry now) (hnow : now ≤ now') : Tracks options ws entry now' := by
  cases ws with
  | nil => exact h
  | cons w ws =>
    rcases h with hentry | ⟨hnone, hover⟩
    · exact .inl hentry
    · exact .inr ⟨hnone, hover.trans_le hnow⟩

theorem Tracks.cleanup {ws : List (Window Answer)} {entry : Option RateLimitEntry} {now : Rat}
    (h : Tracks options ws entry now) :
    Tracks options ws (entry.filter fun entry => ¬ now > entry.resetAt) now := by
  cases ws with
  | nil =>
    obtain rfl : entry = none := h
    rfl
  | cons w ws =>
    rcases h with rfl | ⟨rfl, hover⟩
    · by_cases hover : w.first.now + options.windowMs < now
      · exact .inr ⟨by simp [entryOf, hover], hover⟩
      · exact .inl (by simp [entryOf, not_lt.mp hover])
    · exact .inr ⟨rfl, hover⟩

theorem Kept.cleanup (h : Kept options s) {now : Rat} (hnow : s.now ≤ now) :
    Kept options { s with store := RateLimiter.cleanup s.store now, now := now } :=
  ⟨h.sorted, fun a ha => (h.past a ha).trans hnow, fun ip => ((h.tracks ip).later hnow).cleanup,
    h.decided⟩

theorem Decided.snoc {w : Window Answer} (h : Decided options w) {a : Answer}
    (ha : a.response = responseAt options (w.entries.length + 1)) :
    Decided options ⟨w.first, w.rest ++ [a]⟩ := by
  intro i b hb
  have hentries : (w.entries ++ [a])[i]? = some b := hb
  rcases Nat.lt_trichotomy i w.entries.length with hlt | rfl | hgt
  · rw [List.getElem?_append_left hlt] at hentries
    exact h i b hentries
  · rw [List.getElem?_concat_length] at hentries
    obtain rfl := Option.some.inj hentries
    exact ha
  · have hi := (List.getElem?_eq_some_iff.mp hentries).1
    rw [List.length_append, List.length_singleton] at hi
    omega

theorem Decided.single (hmax : 1 ≤ options.maxRequests) {a : Answer} (ha : a.response = none) :
    Decided options ⟨a, []⟩ := by
  intro i b hb
  cases i with
  | zero =>
    obtain rfl := Option.some.inj hb
    rw [ha, responseAt_one hmax]
  | succ i => cases hb

/-- After a request, for its client. -/
theorem serve_own (hactive : ¬ Disabled env options) (hmax : 1 ≤ options.maxRequests)
    (h : Kept options s) {now : Rat} (hnow : s.now ≤ now) (request : Request) :
    let ip := extractClientIp env request
    let s' := serve env options s now request
    Tracks options (clientWindows options s'.answers ip) (s'.store ip) s'.now ∧
      ∀ w ∈ clientWindows options s'.answers ip, Decided options w := by
  intro ip s'
  have hdecided := h.decided ip
  let a : Answer := ⟨ip, now, (checkRateLimit env options s.store now request).2⟩
  have hwindows : clientWindows options s'.answers ip =
      enter Answer.now options.windowMs (clientWindows options s.answers ip) a :=
    clientWindows_snoc s.answers a
  have hself : ∀ entry, Function.update s.store ip (some entry) ip = some entry :=
    fun entry => Function.update_self ..
  rw [hwindows]
  rcases check_cases hactive h hnow request with
    ⟨w, ws, hws, hopen, -, hstore, hresponse⟩ | ⟨hclosed, -, hstore, hresponse⟩
  · have hentry : s'.store ip = some ⟨w.entries.length + 1, w.first.now + options.windowMs⟩ :=
      (congrFun hstore ip).trans (hself _)
    have hws : clientWindows options s.answers ip = w :: ws := hws
    rw [hws] at hdecided ⊢
    rw [hentry, enter, if_pos hopen]
    constructor
    · exact .inl (by simp [entryOf, Window.entries])
    · intro w' hw'
      rcases List.mem_cons.mp hw' with rfl | hw'
      · exact (hdecided w List.mem_cons_self).snoc hresponse
      · exact hdecided w' (List.mem_cons_of_mem w hw')
  · have hentry : s'.store ip = some ⟨1, now + options.windowMs⟩ :=
      (congrFun hstore ip).trans (hself _)
    have hnew : enter Answer.now options.windowMs (clientWindows options s.answers ip) a =
        ⟨a, []⟩ :: clientWindows options s.answers ip := by
      cases hws : clientWindows options s.answers ip with
      | nil => rfl
      | cons w ws => rw [enter, if_neg (not_le.mpr (hclosed w ws hws))]
    rw [hnew, hentry]
    constructor
    · exact .inl rfl
    · intro w hw
      rcases List.mem_cons.mp hw with rfl | hw
      · exact Decided.single hmax hresponse
      · exact hdecided w hw

/-- A request leaves the entries of other clients. -/
theorem serve_store_of_ne {ip : String} {now : Rat} {request : Request}
    (hne : ip ≠ extractClientIp env request) :
    (serve env options s now request).store ip = s.store ip := by
  simp only [serve, checkRateLimit]
  split
  · rfl
  · split
    · exact Function.update_of_ne hne ..
    · split
      · exact Function.update_of_ne hne ..
      · exact Function.update_of_ne hne ..

theorem Kept.serve (hactive : ¬ Disabled env options) (hmax : 1 ≤ options.maxRequests)
    (h : Kept options s) {now : Rat} (hnow : s.now ≤ now) (request : Request) :
    Kept options (serve env options s now request) := by
  obtain ⟨htracks, hdecided⟩ := serve_own hactive hmax h hnow request
  refine ⟨?_, ?_, ?_, ?_⟩
  · refine List.pairwise_append.mpr ⟨h.sorted, List.pairwise_singleton _ _, ?_⟩
    intro a ha b hb
    obtain rfl := List.mem_singleton.mp hb
    exact (h.past a ha).trans hnow
  · intro a ha
    rcases List.mem_append.mp ha with ha | ha
    · exact (h.past a ha).trans hnow
    · obtain rfl := List.mem_singleton.mp ha
      exact le_rfl
  · intro ip
    by_cases hip : extractClientIp env request = ip
    · exact hip ▸ htracks
    · rw [serve_store_of_ne (Ne.symm hip)]
      simp only [RateLimiter.serve]
      rw [clientWindows_snoc_of_ne _ hip]
      exact (h.tracks ip).later hnow
  · intro ip
    by_cases hip : extractClientIp env request = ip
    · exact hip ▸ hdecided
    · simp only [RateLimiter.serve]
      rw [clientWindows_snoc_of_ne _ hip]
      exact h.decided ip

theorem Kept.step (hactive : ¬ Disabled env options) (hmax : 1 ≤ options.maxRequests)
    (h : Kept options s) {e : Event} (hstep : (machine env options).step s e = some s') :
    Kept options s' := by
  cases e with
  | request now request =>
    obtain ⟨hnow, hs'⟩ := Option.ite_none_right_eq_some.mp hstep
    obtain rfl := Option.some.inj hs'
    exact h.serve hactive hmax hnow request
  | cleanup now =>
    obtain ⟨hnow, hs'⟩ := Option.ite_none_right_eq_some.mp hstep
    obtain rfl := Option.some.inj hs'
    exact h.cleanup hnow

theorem Kept.run (hactive : ¬ Disabled env options) (hmax : 1 ≤ options.maxRequests)
    (h : Kept options s) {events : List Event} (hrun : (machine env options).run s events = some s') :
    Kept options s' :=
  Machine.invariant_of_run (fun _ _ _ h hstep => h.step hactive hmax hstep) h hrun

/-- A run with the timer and one without it give the same answers. -/
theorem answers_without_cleanup (hactive : ¬ Disabled env options)
    (hmax : 1 ≤ options.maxRequests) {s t u : State} (hs : Kept options s) (ht : Kept options t)
    (hsame : t.answers = s.answers) (hnow : t.now ≤ s.now) {events : List Event}
    (hrun : (machine env options).run s events = some u) :
    ∃ v, (machine env options).run t (events.filter Event.isRequest) = some v ∧
      v.answers = u.answers := by
  induction events generalizing s t with
  | nil =>
    obtain rfl := Option.some.inj hrun
    exact ⟨t, rfl, hsame⟩
  | cons e events ih =>
    obtain ⟨s', hstep, hrun⟩ := ((machine env options).run_cons_eq_some).mp hrun
    have hs' := hs.step hactive hmax hstep
    cases e with
    | cleanup now =>
      obtain ⟨hlater, h'⟩ := Option.ite_none_right_eq_some.mp hstep
      obtain rfl := Option.some.inj h'
      exact ih hs' ht hsame (hnow.trans hlater) hrun
    | request now request =>
      obtain ⟨hlater, h'⟩ := Option.ite_none_right_eq_some.mp hstep
      obtain rfl := Option.some.inj h'
      have hlater' := hnow.trans hlater
      have hresponse : (checkRateLimit env options t.store now request).2 =
          (checkRateLimit env options s.store now request).2 := by
        rw [checkRateLimit_place hactive hmax ht hlater',
          checkRateLimit_place hactive hmax hs hlater, hsame]
      have hanswers : (RateLimiter.serve env options t now request).answers =
          (RateLimiter.serve env options s now request).answers := by
        simp only [RateLimiter.serve, hsame, hresponse]
      obtain ⟨v, hv, hsame'⟩ := ih hs' (ht.serve hactive hmax hlater' request) hanswers le_rfl hrun
      refine ⟨v, ?_, hsame'⟩
      rw [List.filter_cons_of_pos rfl, Machine.run_cons_eq_some]
      exact ⟨_, if_pos hlater', hv⟩

/-! ### Bounds -/

theorem responseAt_eq_none_iff (hmax : 0 ≤ options.maxRequests) (place : Nat) :
    responseAt options place = none ↔ place ≤ ⌊options.maxRequests⌋₊ := by
  rw [responseAt, Nat.le_floor_iff hmax]
  split
  · rename_i hgt
    exact ⟨nofun, fun hle => absurd hle (not_le.mpr hgt)⟩
  · rename_i hle
    exact ⟨fun _ => not_lt.mp hle, fun _ => rfl⟩

/-- The requests of a window that are let through are its first ones. -/
theorem Decided.countP_passed {w : Window Answer} (h : Decided options w)
    (hmax : 0 ≤ options.maxRequests) :
    w.entries.countP Answer.passed ≤ ⌊options.maxRequests⌋₊ := by
  apply countP_le_of_index
  intro i a ha hpassed
  have hnone : responseAt options (i + 1) = none := by
    rw [← h i a ha]
    exact Option.isNone_iff_eq_none.mp hpassed
  have hplace := (responseAt_eq_none_iff hmax (i + 1)).mp hnone
  omega

/-- What a limiter has answered: how many requests of a window and of an interval as long as a
window came through, and that the first one of a window did. -/
structure Limited (options : RateLimiterOptions) (answers : List Answer) : Prop where
  perWindow : ∀ ip, ∀ w ∈ clientWindows options answers ip,
    (w.entries.countP Answer.passed : Rat) ≤ options.maxRequests
  perInterval : ∀ ip start, ((ofClient answers ip).countP
    (between Answer.now options.windowMs start Answer.passed) : Rat) ≤ 2 * options.maxRequests
  first : ∀ ip, ∀ w ∈ clientWindows options answers ip, w.first.passed = true

theorem Kept.limited (h : Kept options s) (hwindow : 0 ≤ options.windowMs)
    (hmax : 1 ≤ options.maxRequests) : Limited options s.answers := by
  have hpositive : 0 ≤ options.maxRequests := le_trans zero_le_one hmax
  have hcount : ∀ ip, ∀ w ∈ clientWindows options s.answers ip,
      w.entries.countP Answer.passed ≤ ⌊options.maxRequests⌋₊ :=
    fun ip w hw => (h.decided ip w hw).countP_passed hpositive
  have hfloor : (⌊options.maxRequests⌋₊ : Rat) ≤ options.maxRequests := Nat.floor_le hpositive
  constructor
  · intro ip w hw
    have hle : (w.entries.countP Answer.passed : Rat) ≤ (⌊options.maxRequests⌋₊ : Rat) := by
      exact_mod_cast hcount ip w hw
    exact hle.trans hfloor
  · intro ip start
    have hsorted : (ofClient s.answers ip).Pairwise fun a b => a.now ≤ b.now :=
      h.sorted.sublist List.filter_sublist
    have hle := countP_between_le_two_mul hwindow hsorted (hcount ip) start
    calc ((ofClient s.answers ip).countP
          (between Answer.now options.windowMs start Answer.passed) : Rat)
        ≤ ((2 * ⌊options.maxRequests⌋₊ : Nat) : Rat) := by exact_mod_cast hle
      _ ≤ 2 * options.maxRequests := by
        push_cast
        linarith
  · intro ip w hw
    have hnone := h.decided ip w hw 0 w.first rfl
    rw [responseAt_one hmax] at hnone
    rw [Answer.passed, hnone, Option.isNone_none]

/-- A limiter that is not disabled keeps its bounds, and it answers as if there were no timer. -/
theorem requests_limited (env : Environment) (options : RateLimiterOptions) (now : Rat)
    (events : List Event) (s : State) (hwindow : 1 ≤ options.windowMs)
    (hmax : 1 ≤ options.maxRequests) (hactive : ¬ Disabled env options)
    (hrun : (machine env options).run (State.start now) events = some s) :
    Limited options s.answers ∧
      ∃ t, (machine env options).run (State.start now) (events.filter Event.isRequest) = some t ∧
        t.answers = s.answers := by
  have hstart := Kept.start options now
  constructor
  · exact (hstart.run hactive hmax hrun).limited (le_trans zero_le_one hwindow) hmax
  · exact answers_without_cleanup hactive hmax hstart hstart rfl le_rfl hrun

/-! ### A limiter of one request in ten milliseconds -/

def oneInTen : RateLimiterOptions := ⟨10, 1, none, none⟩

/-- Requests without headers, right at the end of the window, after it, and after the timer. -/
def ticks : List Event :=
  [.request 0 ⟨none, none⟩, .request 10 ⟨none, none⟩, .request 11 ⟨none, none⟩, .cleanup 25,
    .request 26 ⟨none, none⟩]

example : ((machine ⟨none, none⟩ oneInTen).run (State.start 0) ticks).map
    (fun s => s.answers.map Answer.passed) = some [true, false, true, true] := by decide +kernel

theorem ticks_limited : ∃ s, (machine ⟨none, none⟩ oneInTen).run (State.start 0) ticks = some s ∧
    Limited oneInTen s.answers := by
  have hsome : ((machine ⟨none, none⟩ oneInTen).run (State.start 0) ticks).isSome = true := by
    decide +kernel
  obtain ⟨s, hrun⟩ := Option.isSome_iff_exists.mp hsome
  exact ⟨s, hrun, (requests_limited ⟨none, none⟩ oneInTen 0 ticks s (by decide +kernel)
    (by decide +kernel) (by decide) hrun).1⟩

def disabling : Environment := ⟨none, some "1"⟩

/-- A limiter that the environment disables lets two requests through where it has a place for
one. -/
theorem disabled_unlimited : ¬ ∀ (env : Environment) (options : RateLimiterOptions) (now : Rat)
    (events : List Event) (s : State), 1 ≤ options.windowMs → 1 ≤ options.maxRequests →
    (machine env options).run (State.start now) events = some s → Limited options s.answers := by
  intro h
  have hlimited := h disabling oneInTen 0 [.request 0 ⟨none, none⟩, .request 0 ⟨none, none⟩] _
    (by decide +kernel) (by decide +kernel) rfl
  have hle := hlimited.perWindow "unknown" ⟨⟨"unknown", 0, none⟩, [⟨"unknown", 0, none⟩]⟩
    (by decide +kernel)
  revert hle
  decide +kernel

end MissionControl.Limits.Bounds
