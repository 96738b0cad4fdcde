import MissionControl.Foundations.Batches
import MissionControl.Foundations.Lists
import MissionControl.Notifications.SentOnce

/-!
Deliveries one after another while every command succeeds. A notification whose recipient has no
session is passed over and stays where it is, so that enough of them fill every batch.
-/

set_option autoImplicit false
set_option relaxedAutoImplicit false

namespace MissionControl.Notifications.Blocked

open MissionControl.Foundations.Batches
open MissionControl.Foundations.JsText
open MissionControl.Foundations.Lists
open MissionControl.Foundations.Query
open MissionControl.Foundations.Transition (Machine)
open MissionControl.Events.Stores
open Delivery SentOnce

variable (toLocaleString : Nat → String) (order : OrderBy Older)

/-! ### A whole call -/

/-- A call with nothing in between whose commands all succeed. -/
def Delivers (request : Request) (s t : State) : Prop :=
  ∃ outcomes : List Outcome, (∀ outcome ∈ outcomes, outcome.error = none) ∧
    (machine toLocaleString order).run s (.call request :: outcomes.map (.settle 0)) = some t ∧
    t.calls = []

/-- The rows after the sends of a batch. -/
def mark (sent : List (Nat × Nat)) (now : Nat) (n : Notification) : Notification :=
  if (n.id, n.workspaceId) ∈ sent then { n with deliveredAt := some now } else n

@[simp]
theorem mark_nil (now : Nat) : mark [] now = id := by
  funext n
  simp [mark]

@[simp]
theorem mark_id (sent : List (Nat × Nat)) (now : Nat) (n : Notification) :
    (mark sent now n).id = n.id := by
  unfold mark
  split <;> rfl

section

variable {toLocaleString order} {s t : State} {request : Request}

/-- The sends of a batch one after another mark all of them. -/
theorem marks_of_run (hlive : request.dryRun = false) (hquiet : s.calls = []) {report : Report}
    {rows : List Pending} {outcomes : List Outcome}
    (hsuccess : ∀ outcome ∈ outcomes, outcome.error = none)
    (hrun : (machine toLocaleString order).run (proceed toLocaleString s request report rows)
      (outcomes.map (.settle 0)) = some t) (hdone : t.calls = []) :
    t.world.notifications = s.world.notifications.map (mark (targets request rows) s.world.now) ∧
      t.world.agents = s.world.agents := by
  induction rows generalizing s report outcomes with
  | nil =>
    cases outcomes with
    | nil =>
      obtain rfl := Option.some.inj hrun
      have hkept := proceed_kept toLocaleString s request report []
      exact ⟨by simp [hkept.notifications], hkept.agents⟩
    | cons outcome outcomes =>
      obtain ⟨s', hstep, -⟩ := (Machine.run_cons_eq_some _).mp hrun
      simp [machine, step, proceed, hquiet] at hstep
  | cons p rest ih =>
    cases hkey : truthy p.sessionKey with
    | none =>
      simp only [proceed, hkey] at hrun
      rw [targets_cons_none hkey]
      exact ih hquiet hsuccess hrun
    | some sessionKey =>
      simp only [proceed, hkey, hlive, Bool.false_eq_true, if_false] at hrun
      cases outcomes with
      | nil =>
        obtain rfl := Option.some.inj hrun
        simp at hdone
      | cons outcome outcomes =>
        obtain ⟨s', hstep, hrest⟩ := (Machine.run_cons_eq_some _).mp hrun
        have houtcome := hsuccess outcome List.mem_cons_self
        simp only [machine, step, hquiet, List.nil_append, List.getElem?_cons_zero, Option.map_some,
          List.eraseIdx_cons_zero, settle, houtcome, Option.some.injEq] at hstep
        rw [← hstep] at hrest
        obtain ⟨hmarks, hagents⟩ := ih (by simp [delivered])
          (fun o ho => hsuccess o (List.mem_cons_of_mem _ ho)) hrest
        refine ⟨?_, hagents⟩
        rw [hmarks, targets_cons_some hkey hlive]
        show (List.map _ (s.world.notifications.map _)) = _
        rw [List.map_map]
        apply List.map_congr_left
        intro n _
        show mark _ s.world.now _ = _
        by_cases hfirst : n.id = p.notification.id ∧ n.workspaceId = request.workspaceId
        · simp [mark, hfirst]
        · simp [mark, hfirst]

variable (toLocaleString order) in
/-- The sends of a batch can be made one after another. -/
theorem exists_sends (hlive : request.dryRun = false) (hquiet : s.calls = []) (report : Report)
    (rows : List Pending) : ∃ (outcomes : List Outcome) (t : State),
      (∀ outcome ∈ outcomes, outcome.error = none) ∧
      (machine toLocaleString order).run (proceed toLocaleString s request report rows)
        (outcomes.map (.settle 0)) = some t ∧ t.calls = [] := by
  induction rows generalizing s report with
  | nil => exact ⟨[], _, by simp, rfl, hquiet⟩
  | cons p rest ih =>
    cases hkey : truthy p.sessionKey with
    | none =>
      simp only [proceed, hkey]
      exact ih hquiet _
    | some sessionKey =>
      simp only [proceed, hkey, hlive, Bool.false_eq_true, if_false]
      let call : Call := ⟨request, report, p.notification, sessionKey,
        formatNotificationMessage toLocaleString p.notification, rest⟩
      obtain ⟨outcomes, t, hsuccess, hrun, hdone⟩ := @ih (delivered { s with calls := [] } call)
        (by simp [delivered]) (report.deliver
          ⟨p.notification.id, p.notification.recipient, sessionKey, some s.world.now, "delivered",
            (Outcome.exited "" "").output⟩)
      have hempty : (Outcome.exited "" "").error = none := by decide
      refine ⟨.exited "" "" :: outcomes, t, ?_, ?_, hdone⟩
      · intro outcome houtcome
        rcases List.mem_cons.mp houtcome with rfl | houtcome
        · exact hempty
        · exact hsuccess outcome houtcome
      · rw [List.map_cons, Machine.run_cons_eq_some]
        refine ⟨_, ?_, hrun⟩
        simp [machine, step, hquiet, settle, hempty, call]

theorem Delivers.marks (h : Delivers toLocaleString order request s t)
    (hlive : request.dryRun = false) (hquiet : s.calls = []) :
    t.world.notifications = s.world.notifications.map
      (mark (targets request (undeliveredNotifications order s.world request)) s.world.now) ∧
    t.world.agents = s.world.agents := by
  obtain ⟨outcomes, hsuccess, hrun, hdone⟩ := h
  obtain ⟨s', hstep, hrest⟩ := (Machine.run_cons_eq_some _).mp hrun
  obtain rfl := Option.some.inj hstep
  unfold begin at hrest
  split at hrest
  · rename_i hbatch
    rw [hbatch]
    cases outcomes with
    | nil =>
      obtain rfl := Option.some.inj hrest
      simp
    | cons outcome outcomes =>
      obtain ⟨s', hstep, -⟩ := (Machine.run_cons_eq_some _).mp hrest
      simp [machine, step, hquiet] at hstep
  · exact marks_of_run hlive hquiet hsuccess hrest hdone

theorem exists_delivers (hlive : request.dryRun = false) (hquiet : s.calls = []) :
    ∃ t, Delivers toLocaleString order request s t := by
  cases hbatch : undeliveredNotifications order s.world request with
  | nil =>
    refine ⟨{ s with replies := s.replies ++ [.start 0] }, [], by simp, ?_, hquiet⟩
    rw [Machine.run_cons_eq_some]
    exact ⟨_, by simp only [machine, step, begin, hbatch], rfl⟩
  | cons p rest =>
    obtain ⟨outcomes, t, hsuccess, hrun, hdone⟩ := exists_sends toLocaleString
      order hlive hquiet (.start (p :: rest).length) (p :: rest)
    refine ⟨t, outcomes, hsuccess, ?_, hdone⟩
    rw [Machine.run_cons_eq_some]
    exact ⟨_, by simp only [machine, step, begin, hbatch], hrun⟩

end

/-! ### The queue of a request -/

/-- The undelivered notifications that a request is about. -/
def waiting (request : Request) (w : World) : List Pending :=
  (w.notifications.filter request.selects).map (pending w)

/-- There is no session to send it to. -/
def stuck (p : Pending) : Bool := (truthy p.sessionKey).isNone

/-- No call is under way, and the notifications have different ids. -/
structure Quiet (s : State) : Prop where
  calls : s.calls = []
  unique : (s.world.notifications.map Notification.id).Nodup

section

variable {toLocaleString order} {s t : State} {request : Request} {w : World}

/-- Rows of the queue are told apart by their ids. -/
theorem waiting_unique (hunique : (w.notifications.map Notification.id).Nodup) {p q : Pending}
    (hp : p ∈ waiting request w) (hq : q ∈ waiting request w)
    (hid : p.notification.id = q.notification.id) : p = q := by
  obtain ⟨n, hn, rfl⟩ := List.mem_map.mp hp
  obtain ⟨m, hm, rfl⟩ := List.mem_map.mp hq
  rw [List.inj_on_of_nodup_map hunique (List.mem_of_mem_filter hn) (List.mem_of_mem_filter hm) hid]

theorem batch_subset {p : Pending} (h : p ∈ undeliveredNotifications order w request) :
    p ∈ waiting request w :=
  (order.perm _).mem_iff.mp ((page_sublist request.limit 0 _).subset h)

/-- A row of the queue is sent exactly when it is in the batch and has a session. -/
theorem mem_targets_iff (hunique : (w.notifications.map Notification.id).Nodup)
    (hlive : request.dryRun = false) {p : Pending} (hp : p ∈ waiting request w) :
    (p.notification.id, request.workspaceId) ∈
        targets request (undeliveredNotifications order w request) ↔
      p ∈ undeliveredNotifications order w request ∧ stuck p = false := by
  simp only [targets, hlive, Bool.false_eq_true, if_false, List.mem_map, List.mem_filter,
    Prod.mk.injEq, and_true, stuck, Option.isNone_eq_false_iff]
  constructor
  · rintro ⟨q, ⟨hq, hkey⟩, hid⟩
    obtain rfl := waiting_unique hunique (batch_subset hq) hp hid
    exact ⟨hq, hkey⟩
  · rintro ⟨hbatch, hkey⟩
    exact ⟨p, ⟨hbatch, hkey⟩, rfl⟩

/-- A row that is marked is not selected any more. -/
theorem selects_mark (request : Request) (sent : List (Nat × Nat)) (now : Nat) (n : Notification) :
    request.selects (mark sent now n) =
      (request.selects n && decide ((n.id, request.workspaceId) ∉ sent)) := by
  by_cases hworkspace : n.workspaceId = request.workspaceId
  · by_cases hsent : (n.id, request.workspaceId) ∈ sent
    · simp [mark, Request.selects, hworkspace, hsent]
    · simp [mark, hworkspace, hsent]
  · have hnot : request.selects n = false := by simp [Request.selects, hworkspace]
    rw [hnot, Bool.false_and]
    unfold mark
    split
    · simp [Request.selects, hworkspace]
    · exact hnot

theorem Delivers.quiet (h : Delivers toLocaleString order request s t)
    (hlive : request.dryRun = false) (hquiet : Quiet s) : Quiet t := by
  refine ⟨h.choose_spec.2.2, ?_⟩
  rw [(h.marks hlive hquiet.calls).1, List.map_map]
  have hids : Notification.id ∘ mark (targets request
      (undeliveredNotifications order s.world request)) s.world.now = Notification.id :=
    funext fun n => mark_id _ _ n
  rw [hids]
  exact hquiet.unique

/-- A whole call takes what it sends out of the queue. -/
theorem Delivers.queue (h : Delivers toLocaleString order request s t)
    (hlive : request.dryRun = false) (hquiet : Quiet s) :
    waiting request t.world = (waiting request s.world).filter fun p =>
      (p.notification.id, request.workspaceId) ∉
        targets request (undeliveredNotifications order s.world request) := by
  obtain ⟨hmarks, hagents⟩ := h.marks hlive hquiet.calls
  have hpending : pending t.world = pending s.world := by
    funext n
    simp only [pending, World.agentNamed, hagents]
  have hrows := filter_map_of_drops (selects_mark request
      (targets request (undeliveredNotifications order s.world request)) s.world.now)
    (by
      intro n hselects hkeep
      simp only [Request.selects, decide_eq_true_eq] at hselects hkeep
      exact if_neg (by rwa [hselects.2.1])) s.world.notifications
  rw [waiting, hpending, hmarks, hrows, waiting, List.filter_map]
  rfl

end

/-! ### Progress -/

/-- Every notification that the request is about and that has a session to go to is delivered. -/
def AllDelivered (request : Request) (w : World) : Prop :=
  ∀ n ∈ w.notifications, n.workspaceId = request.workspaceId →
    (∀ name ∈ truthy request.agentFilter, n.recipient = name) →
    stuck (pending w n) = false → n.deliveredAt.isSome = true

/-- No notification that has a session to go to is undelivered together with a whole batch of
others that have none and are not younger. -/
def Unblocked (request : Request) (w : World) : Prop :=
  ∀ n ∈ w.notifications, request.selects n = true → stuck (pending w n) = false →
    (w.notifications.countP fun u => request.selects u && (stuck (pending w u) &&
      decide (u.createdAt ≤ n.createdAt)) : Int) < request.limit

section

variable {toLocaleString order} {s t : State} {request : Request} {w : World}

theorem allDelivered_iff : AllDelivered request w ↔ ∀ p ∈ waiting request w, stuck p = true := by
  constructor
  · intro h p hp
    obtain ⟨n, hn, rfl⟩ := List.mem_map.mp hp
    obtain ⟨hmem, hselects⟩ := List.mem_filter.mp hn
    simp only [Request.selects, decide_eq_true_eq] at hselects
    by_contra hfree
    have hdelivered := h n hmem hselects.2.1 hselects.2.2 (by simpa using hfree)
    simp [hselects.1] at hdelivered
  · intro h n hn hworkspace hfilter hfree
    by_contra hopen
    have hselects : request.selects n = true := by
      simp only [Request.selects, decide_eq_true_eq]
      exact ⟨by simpa using hopen, hworkspace, hfilter⟩
    have hstuck := h (pending w n) (List.mem_map_of_mem (List.mem_filter.mpr ⟨hn, hselects⟩))
    simp [hfree] at hstuck

theorem unblocked_iff : Unblocked request w ↔ ∀ p ∈ waiting request w, stuck p = false →
    ((waiting request w).countP fun b => stuck b && decide (Older b p) : Int) < request.limit := by
  have hcount : ∀ n : Notification,
      (waiting request w).countP (fun b => stuck b && decide (Older b (pending w n))) =
        w.notifications.countP fun u => request.selects u && (stuck (pending w u) &&
          decide (u.createdAt ≤ n.createdAt)) := by
    intro n
    rw [waiting, List.countP_map, List.countP_filter]
    apply List.countP_congr
    intro u _
    simp only [Function.comp, Bool.and_eq_true, decide_eq_true_eq]
    exact and_comm
  constructor
  · intro h p hp hfree
    obtain ⟨n, hn, rfl⟩ := List.mem_map.mp hp
    obtain ⟨hmem, hselects⟩ := List.mem_filter.mp hn
    rw [hcount n]
    exact h n hmem hselects hfree
  · intro h n hn hselects hfree
    have hlt := h (pending w n) (List.mem_map_of_mem (List.mem_filter.mpr ⟨hn, hselects⟩)) hfree
    rwa [hcount n] at hlt

theorem batch_eq_take (hlimit : 1 ≤ request.limit) (w : World) :
    undeliveredNotifications order w request =
      (order.arrange (waiting request w)).take request.limit.toNat := by
  simp only [undeliveredNotifications, page, waiting]
  rw [if_neg (by omega)]
  rfl

/-- A call that is not blocked delivers something. -/
theorem Delivers.lowers (h : Delivers toLocaleString order request s t)
    (hlive : request.dryRun = false) (hlimit : 1 ≤ request.limit) (hquiet : Quiet s)
    (hunblocked : Unblocked request s.world) (hopen : ¬ AllDelivered request s.world) :
    (waiting request t.world).countP (fun p => !stuck p) <
      (waiting request s.world).countP fun p => !stuck p := by
  rw [allDelivered_iff] at hopen
  push Not at hopen
  obtain ⟨d, hd, hfree⟩ := hopen
  have hfree : stuck d = false := by simpa using hfree
  have hfew := unblocked_iff.mp hunblocked d hd hfree
  obtain ⟨b, hb, hsends⟩ := exists_not_stuck order hd hfree (n := request.limit.toNat) (by omega)
  rw [← batch_eq_take hlimit] at hb
  have hmem := batch_subset hb
  have hsent := (mem_targets_iff hquiet.unique hlive hmem).mpr ⟨hb, hsends⟩
  rw [h.queue hlive hquiet]
  exact countP_filter_lt hmem (by simp [hsends]) (by simpa using hsent)

theorem Delivers.unblocked (h : Delivers toLocaleString order request s t)
    (hlive : request.dryRun = false) (hquiet : Quiet s) (hunblocked : Unblocked request s.world) :
    Unblocked request t.world := by
  rw [unblocked_iff] at hunblocked ⊢
  rw [h.queue hlive hquiet]
  intro p hp hfree
  have hlt := hunblocked p (List.mem_of_mem_filter hp) hfree
  have hle := (List.filter_sublist (l := waiting request s.world) (p := fun p =>
    decide ((p.notification.id, request.workspaceId) ∉
      targets request (undeliveredNotifications order s.world request)))).countP_le
        (p := fun b => stuck b && decide (Older b p))
  omega

/-- A row of the queue that has a session, behind a whole batch of rows that have none. -/
structure Stranded (request : Request) (s : State) (d : Pending) : Prop where
  waits : d ∈ waiting request s.world
  free : stuck d = false
  behind : request.limit ≤ (waiting request s.world).countP fun b => stuck b && decide (Older b d)

/-- The order in which rows without a session come first among those of one time. -/
def stuckFirst : OrderBy Older :=
  (OrderBy.stable (sorts_older.thenBy (sorts_stuckFirst stuck))).weaken fun _ _ h => h.1

theorem Delivers.stranded (h : Delivers toLocaleString stuckFirst request s t)
    (hlive : request.dryRun = false) (hlimit : 1 ≤ request.limit) (hquiet : Quiet s) {d : Pending}
    (hd : Stranded request s d) : Stranded request t d := by
  have hbehind := hd.behind
  constructor
  · rw [h.queue hlive hquiet]
    apply List.mem_filter.mpr
    refine ⟨hd.waits, ?_⟩
    rw [decide_eq_true_eq, mem_targets_iff hquiet.unique hlive hd.waits, batch_eq_take hlimit]
    rintro ⟨hbatch, -⟩
    have hmany : request.limit.toNat ≤ (waiting request s.world).countP fun b =>
        stuck b && decide (Older b d) := by
      omega
    exact not_mem_batch (OrderBy.stable (sorts_older.thenBy (sorts_stuckFirst stuck))) hd.free hmany
      hbatch
  · exact hd.free
  · rw [h.queue hlive hquiet, List.countP_filter]
    have hsame : (waiting request s.world).countP (fun b => (stuck b && decide (Older b d)) &&
        decide ((b.notification.id, request.workspaceId) ∉
          targets request (undeliveredNotifications stuckFirst s.world request))) =
        (waiting request s.world).countP fun b => stuck b && decide (Older b d) := by
      apply List.countP_congr
      intro b hb
      have hstuck : stuck b = true → (b.notification.id, request.workspaceId) ∉
          targets request (undeliveredNotifications stuckFirst s.world request) := by
        rw [mem_targets_iff hquiet.unique hlive hb]
        rintro hstuck ⟨-, hfree⟩
        simp [hstuck] at hfree
      simp only [Bool.and_eq_true, decide_eq_true_eq]
      exact ⟨fun h => h.1, fun h => ⟨h, hstuck h.1⟩⟩
    rw [hsame]
    exact hbehind

/-- Calls of a request that is blocked never deliver everything. -/
theorem exists_blocked_run (toLocaleString : Nat → String) (hlive : request.dryRun = false)
    (hlimit : 1 ≤ request.limit) (hunique : (w.notifications.map Notification.id).Nodup)
    (hblocked : ¬ Unblocked request w) : ∃ run : Nat → State, run 0 = State.init w ∧
      (∀ i, Delivers toLocaleString stuckFirst request (run i) (run (i + 1))) ∧
      ∀ k, ¬ AllDelivered request (run k).world := by
  have hquiet : Quiet (State.init w) := ⟨rfl, hunique⟩
  rw [unblocked_iff] at hblocked
  obtain ⟨d, hblocked⟩ := not_forall.mp hblocked
  obtain ⟨hd, hblocked⟩ := Classical.not_imp.mp hblocked
  obtain ⟨hfree, hmany⟩ := Classical.not_imp.mp hblocked
  obtain ⟨run, hstart, hrun⟩ := exists_run (R := Delivers toLocaleString stuckFirst request)
    (fun s (hs : Quiet s) => (exists_delivers hlive hs.calls).imp fun t ht => ⟨ht, ht.quiet hlive hs⟩) hquiet
  have hstranded : ∀ k, Quiet (run k) ∧ Stranded request (run k) d := by
    intro k
    induction k with
    | zero =>
      rw [hstart]
      exact ⟨hquiet, hd, hfree, Int.not_lt.mp hmany⟩
    | succ k ih => exact ⟨(hrun k).quiet hlive ih.1, (hrun k).stranded hlive hlimit ih.1 ih.2⟩
  refine ⟨run, hstart, hrun, ?_⟩
  intro k hk
  have hstuck := allDelivered_iff.mp hk d (hstranded k).2.waits
  simp [hfree] at hstuck

end

/-! ### A notification for no agent in front of another one -/

theorem sampleWorld_unique : ((sampleWorld ["admin", "worker"]).notifications.map
    Notification.id).Nodup := by
  decide +kernel

end MissionControl.Notifications.Blocked
